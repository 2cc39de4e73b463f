import TproxyServer.Registry

/-! # Bootstraps are one-shot and accounted

The runs of a registry: any operations in any order, at any readings of the clock, by anyone.
`Run` remembers the random bytes drawn so far and the sessions created, and from which
bootstrap.  The invariant `Run.Ledger` ties the per-address and per-profile counts to the
tables they count, and every creation to the entry it consumed. -/

namespace TproxyServer

variable {F : Type}

/-! ### Runs -/

/-- A session was created from the bootstrap under `bootstrap`. -/
structure Creation where
  bootstrap : Bytes
  body : Bytes
  result : Registry.CreateResult

namespace Registry

inductive Op where
  | issueBootstrap (profile : Option Profile) (clientIP : String) (now : ℤ)
      (random : Option Bytes) (order : List Bytes)
  | create (token clientIP : String) (body : Bytes) (now : ℤ) (random : Option Bytes)
  | hasBootstrap (token : String) (now : ℤ)
  | expire (now : ℤ)
  | sessionFinished (value : ℕ) (now : ℤ) (order : List Bytes)
  | shutdown

/-- The random bytes an operation is given. -/
def Op.random : Op → Option Bytes
  | .issueBootstrap _ _ _ random _ | .create _ _ _ _ random => random
  | _ => none

/-- A registry and what has happened to it. -/
structure Run (F : Type) where
  registry : Registry F
  drawn : List Bytes := []
  creations : List Creation := []

section
variable [Float64 F] (sha256 : Bytes → Bytes)

def Op.exec (r : Registry F) : Op → Registry F
  | .issueBootstrap profile clientIP now random order =>
      (r.issueBootstrap sha256 profile clientIP now random order).1
  | .create token clientIP body now random => (r.create sha256 token clientIP body now random).1
  | .hasBootstrap _ _ => r
  | .expire now => r.removeExpiredBootstrapsLocked now
  | .sessionFinished value now order => r.sessionFinished value now order
  | .shutdown => r.shutdown

/-- The session that a `Create` adds, if it is not a retry. -/
def Op.creation (r : Registry F) : Op → Option Creation
  | .create token clientIP body now random =>
      match tokenHash sha256 token, r.create sha256 token clientIP body now random with
      | some hash, (r', .ok result) =>
          if r'.nextSession = r.nextSession then none else some ⟨hash, body, result⟩
      | _, _ => none
  | _ => none

def Run.after (R : Run F) (op : Op) : Run F where
  registry := op.exec sha256 R.registry
  drawn := R.drawn ++ op.random.toList
  creations := R.creations ++ (op.creation sha256 R.registry).toList

/-- The runs of a registry in which no random bytes are drawn twice. -/
inductive Reachable (config : Config) : Run F → Prop
  | start : Reachable config { registry := newRegistry config }
  | step {R : Run F} (op : Op) (hfresh : ∀ x ∈ op.random, x.length = 32 ∧ x ∉ R.drawn) :
      Reachable config R → Reachable config (R.after sha256 op)

end

/-! ### The invariant -/

/-- An unused bootstrap that was issued to `ip`. -/
def unusedOf (ip : String) (e : Bootstrap) : Bool := !e.used && e.issuanceIP = ip

/-- The books of a registry: the counters count what they are about, the tokens are among
those drawn, and of a bootstrap that was used the entry still says for what. -/
structure Ledger (sha256 : Bytes → Bytes) (drawn : List Bytes) (creations : List Creation)
    (r : Registry F) : Prop where
  unused : ∀ ip, r.bootstrapsPerIP.count ip = r.bootstraps.countP (unusedOf ip)
  perIP : ∀ ip, r.sessionsPerIP.count ip = r.sessions.countP fun l => l.clientIP = ip
  perProfile : ∀ name,
    r.sessionsPerProfile.count name = r.sessions.countP fun l => l.profile.name = name
  room : (r.bootstraps.size : ℤ) ≤ r.config.limits.maxBootstrapsGlobal.toInt
  lengths : ∀ x ∈ drawn, x.length = 32
  bootstraps : ∀ hash e, r.bootstraps.get hash = some e → ∃ x ∈ drawn, sha256 x = hash
  sessions : ∀ hash l, r.sessions.get hash = some l → ∃ x ∈ drawn, sha256 x = hash
  created : ∀ c ∈ creations, ∃ x ∈ drawn, sha256 x = c.bootstrap
  hello : ∀ c ∈ creations, parseHello c.body = true ∧ c.result.welcome = encode .welcome 0 []
  entries : ∀ c ∈ creations, ∀ e, r.bootstraps.get c.bootstrap = some e →
    e.used = true ∧ e.bodyDigest = sha256 c.body ∧ e.sessionToken = c.result.token ∧
      e.session = some c.result.session
  once : (creations.map (·.bootstrap)).Nodup
  complete : r.sessionsCreated = creations.length

variable {sha256 : Bytes → Bytes} {drawn : List Bytes} {creations : List Creation}
  {r r' : Registry F} {hash : Bytes} {value : Bootstrap}

/-- The fields the books are about are as before. -/
theorem Ledger.congr (h : Ledger sha256 drawn creations r) (hconfig : r'.config = r.config)
    (hboot : r'.bootstraps = r.bootstraps) (hbootIP : r'.bootstrapsPerIP = r.bootstrapsPerIP)
    (hsessions : r'.sessions = r.sessions) (hperIP : r'.sessionsPerIP = r.sessionsPerIP)
    (hperProfile : r'.sessionsPerProfile = r.sessionsPerProfile)
    (hcreated : r'.sessionsCreated = r.sessionsCreated) : Ledger sha256 drawn creations r' where
  unused := by rw [hboot, hbootIP]; exact h.unused
  perIP := by rw [hsessions, hperIP]; exact h.perIP
  perProfile := by rw [hsessions, hperProfile]; exact h.perProfile
  room := by rw [hboot, hconfig]; exact h.room
  lengths := h.lengths
  bootstraps := by rw [hboot]; exact h.bootstraps
  sessions := by rw [hsessions]; exact h.sessions
  created := h.created
  hello := h.hello
  entries := by rw [hboot]; exact h.entries
  once := h.once
  complete := hcreated.trans h.complete

/-! ### Removing bootstraps -/

theorem countP_unusedOf_release (h : Ledger sha256 drawn creations r)
    (hget : r.bootstraps.get hash = some value) (ip : String) :
    (r.releaseUnusedBootstrapLocked value).bootstrapsPerIP.count ip +
      (if unusedOf ip value then 1 else 0) = r.bootstraps.countP (unusedOf ip) := by
  rw [← h.unused ip]
  unfold releaseUnusedBootstrapLocked
  cases hused : value.used with
  | true => simp [unusedOf, hused]
  | false =>
      have hpos : 1 ≤ r.bootstrapsPerIP.count value.issuanceIP := by
        rw [h.unused]
        exact Table.countP_pos _ _ hget (by simp [unusedOf, hused])
      have hgone : ∀ n : ℤ, 0 ≤ n → decide (n ≤ 0) = true → n = 0 := fun n h0 hg =>
        le_antisymm (by simpa using hg) h0
      have hcount := Table.count_decrement hgone r.bootstrapsPerIP hpos ip
      simp only [unusedOf, hused, Bool.not_false, Bool.true_and, decide_eq_true_eq,
        Bool.false_eq_true, if_false]
      rw [hcount, add_comm]

/-- A bootstrap that is removed takes its slot with it, if it still has one. -/
theorem Ledger.remove (h : Ledger sha256 drawn creations r)
    (hget : r.bootstraps.get hash = some value) :
    Ledger sha256 drawn creations (r.removeBootstrapLocked hash value) := by
  have hsame : ∀ hash' e, (r.bootstraps.del hash).get hash' = some e →
      r.bootstraps.get hash' = some e := by
    intro hash' e he
    rw [Table.get_del] at he
    split_ifs at he
    exact he
  have hrest : (r.releaseUnusedBootstrapLocked value).config = r.config ∧
      (r.releaseUnusedBootstrapLocked value).bootstraps = r.bootstraps ∧
      (r.releaseUnusedBootstrapLocked value).sessions = r.sessions ∧
      (r.releaseUnusedBootstrapLocked value).sessionsPerIP = r.sessionsPerIP ∧
      (r.releaseUnusedBootstrapLocked value).sessionsPerProfile = r.sessionsPerProfile ∧
      (r.releaseUnusedBootstrapLocked value).sessionsCreated = r.sessionsCreated := by
    unfold releaseUnusedBootstrapLocked
    split_ifs <;> exact ⟨rfl, rfl, rfl, rfl, rfl, rfl⟩
  obtain ⟨hconfig, hboot, hsessions, hperIP, hperProfile, hcreated⟩ := hrest
  have hcount := countP_unusedOf_release h hget
  unfold removeBootstrapLocked
  generalize r.releaseUnusedBootstrapLocked value = r₁ at *
  refine ⟨?_, ?_, ?_, ?_, h.lengths, ?_, ?_, h.created, h.hello, ?_, h.once,
    hcreated.trans h.complete⟩
  · intro ip
    show r₁.bootstrapsPerIP.count ip = (r₁.bootstraps.del hash).countP (unusedOf ip)
    have := hcount ip
    rw [Table.countP_del_of_get _ _ hget] at this
    rw [hboot]
    omega
  · show ∀ ip, r₁.sessionsPerIP.count ip = r₁.sessions.countP _
    rw [hsessions, hperIP]
    exact h.perIP
  · show ∀ name, r₁.sessionsPerProfile.count name = r₁.sessions.countP _
    rw [hsessions, hperProfile]
    exact h.perProfile
  · show ((r₁.bootstraps.del hash).size : ℤ) ≤ r₁.config.limits.maxBootstrapsGlobal.toInt
    have hroom := h.room
    rw [Table.size_eq_countP, Table.countP_del_of_get _ _ hget, if_pos rfl] at hroom
    rw [hboot, hconfig, Table.size_eq_countP]
    omega
  · show ∀ hash' e, (r₁.bootstraps.del hash).get hash' = some e → _
    rw [hboot]
    exact fun hash' e he => h.bootstraps hash' e (hsame hash' e he)
  · show ∀ hash' l, r₁.sessions.get hash' = some l → _
    rw [hsessions]
    exact h.sessions
  · show ∀ c ∈ creations, ∀ e, (r₁.bootstraps.del hash).get c.bootstrap = some e → _
    rw [hboot]
    exact fun c hc e he => h.entries c hc e (hsame _ e he)

/-- What the removal of a bootstrap keeps, the removal of several keeps. -/
theorem removeBootstraps_induct {I : Registry F → Prop} (gone : Bootstrap → Bool)
    (hstep : ∀ r hash value, r.bootstraps.get hash = some value → gone value = true → I r →
      I (r.removeBootstrapLocked hash value)) (h : I r) : I (r.removeBootstraps gone) := by
  have hfold : ∀ (l : List (Sigma fun _ : Bytes => Bootstrap)) (r : Registry F),
      l.NodupKeys → (∀ e ∈ l, r.bootstraps.get e.1 = some e.2) → I r →
      I (l.foldl (fun r e => if gone e.2 then r.removeBootstrapLocked e.1 e.2 else r) r) := by
    intro l
    induction l with
    | nil => exact fun r _ _ h => h
    | cons e l ih =>
        intro r hnodup hmem h
        have hnot := List.notMem_keys_of_nodupKeys_cons hnodup
        have htail := List.nodupKeys_of_nodupKeys_cons hnodup
        rw [List.foldl_cons]
        by_cases hg : gone e.2 = true
        · rw [if_pos hg]
          refine ih _ htail ?_ (hstep r _ _ (hmem e (by simp)) hg h)
          intro e' he'
          have hne : e'.1 ≠ e.1 := fun heq => hnot (heq ▸ List.mem_keys_of_mem he')
          show ((r.releaseUnusedBootstrapLocked e.2).bootstraps.del e.1).get e'.1 = _
          rw [Table.get_del_ne _ hne]
          have hsame : (r.releaseUnusedBootstrapLocked e.2).bootstraps = r.bootstraps := by
            unfold releaseUnusedBootstrapLocked
            split_ifs <;> rfl
          rw [hsame]
          exact hmem e' (List.mem_cons_of_mem _ he')
        · rw [if_neg hg]
          exact ih r htail (fun e' he' => hmem e' (List.mem_cons_of_mem _ he')) h
  exact hfold _ r r.bootstraps.nodupKeys (fun e he => Table.get_of_mem _ he) h

theorem Ledger.removeBootstraps (h : Ledger sha256 drawn creations r)
    (gone : Bootstrap → Bool) : Ledger sha256 drawn creations (r.removeBootstraps gone) :=
  removeBootstraps_induct gone (fun _ _ _ hget _ h => h.remove hget) h

theorem Ledger.expire (h : Ledger sha256 drawn creations r) (now : ℤ) :
    Ledger sha256 drawn creations (r.removeExpiredBootstrapsLocked now) :=
  (h.removeBootstraps _).congr rfl rfl rfl rfl rfl rfl rfl

/-- What the search has found is an unused entry. -/
def UnusedEntry (r : Registry F) (best : Bytes × Bootstrap) : Prop :=
  r.bootstraps.get best.1 = some best.2 ∧ best.2.used = false

theorem olderUnused_spec {oldest : Option (Bytes × Bootstrap)}
    (h : ∀ best ∈ oldest, r.UnusedEntry best) :
    ∀ best ∈ r.olderUnused oldest hash, r.UnusedEntry best := by
  intro best hbest
  unfold olderUnused at hbest
  cases hget : r.bootstraps.get hash with
  | none =>
      rw [hget] at hbest
      exact h best hbest
  | some value =>
      rw [hget] at hbest
      dsimp only at hbest
      cases hused : value.used with
      | true =>
          rw [hused, if_pos rfl] at hbest
          exact h best hbest
      | false =>
          rw [hused, if_neg (by simp)] at hbest
          cases oldest with
          | none => cases hbest; exact ⟨hget, hused⟩
          | some old =>
              dsimp only at hbest
              split_ifs at hbest
              · cases hbest; exact ⟨hget, hused⟩
              · exact h best hbest

theorem oldestUnused_spec (order : List Bytes) :
    ∀ best ∈ r.oldestUnused order, r.UnusedEntry best := by
  have hfold : ∀ (order : List Bytes) (oldest : Option (Bytes × Bootstrap)),
      (∀ best ∈ oldest, r.UnusedEntry best) →
      ∀ best ∈ order.foldl r.olderUnused oldest, r.UnusedEntry best := by
    intro order
    induction order with
    | nil => exact fun oldest h => h
    | cons hash order ih => exact fun oldest h => ih _ (olderUnused_spec h)
  exact hfold order none (by simp)

/-! ### Issuing -/

theorem drawn_append {more : List Bytes} (h : ∃ x ∈ drawn, sha256 x = hash) :
    ∃ x ∈ drawn ++ more, sha256 x = hash := by
  obtain ⟨x, hx, hs⟩ := h
  exact ⟨x, List.mem_append_left _ hx, hs⟩

theorem Ledger.draw (h : Ledger sha256 drawn creations r) {more : List Bytes}
    (hmore : ∀ x ∈ more, x.length = 32) : Ledger sha256 (drawn ++ more) creations r where
  unused := h.unused
  perIP := h.perIP
  perProfile := h.perProfile
  room := h.room
  lengths := by
    intro x hx
    rcases List.mem_append.mp hx with hx | hx
    · exact h.lengths x hx
    · exact hmore x hx
  bootstraps := fun hash e he => drawn_append (h.bootstraps hash e he)
  sessions := fun hash l hl => drawn_append (h.sessions hash l hl)
  created := fun c hc => drawn_append (h.created c hc)
  hello := h.hello
  entries := h.entries
  once := h.once
  complete := h.complete

/-- SHA-256 tells 32-byte tokens apart. -/
def TellsTokensApart (sha256 : Bytes → Bytes) : Prop :=
  ∀ a b : Bytes, a.length = 32 → b.length = 32 → sha256 a = sha256 b → a = b

/-- The hash of a token that was not drawn before is not in the books. -/
theorem Ledger.fresh (h : Ledger sha256 drawn creations r) (hsha : TellsTokensApart sha256)
    {input : Bytes} (hlength : input.length = 32) (hfresh : input ∉ drawn) :
    r.bootstraps.get (sha256 input) = none ∧ r.sessions.get (sha256 input) = none ∧
      ∀ c ∈ creations, c.bootstrap ≠ sha256 input := by
  have hne : ∀ x ∈ drawn, sha256 x ≠ sha256 input := fun x hx heq =>
    hfresh (hsha x input (h.lengths x hx) hlength heq ▸ hx)
  refine ⟨?_, ?_, ?_⟩
  · by_contra hget
    obtain ⟨e, he⟩ := Option.ne_none_iff_exists'.mp hget
    obtain ⟨x, hx, hs⟩ := h.bootstraps _ e he
    exact hne x hx hs
  · by_contra hget
    obtain ⟨l, hl⟩ := Option.ne_none_iff_exists'.mp hget
    obtain ⟨x, hx, hs⟩ := h.sessions _ l hl
    exact hne x hx hs
  · intro c hc heq
    obtain ⟨x, hx, hs⟩ := h.created c hc
    exact hne x hx (hs.trans heq)

/-- A new bootstrap takes a slot of its address. -/
theorem Ledger.issue (h : Ledger sha256 drawn creations r) (hsha : TellsTokensApart sha256)
    {input : Bytes} (hlength : input.length = 32) (hfresh : input ∉ drawn)
    (hroom : (r.bootstraps.size : ℤ) < r.config.limits.maxBootstrapsGlobal.toInt)
    (hunused : value.used = false) :
    Ledger sha256 (drawn ++ [input]) creations
      { r with
        bootstraps := r.bootstraps.put (sha256 input) value
        bootstrapsPerIP := r.bootstrapsPerIP.increment value.issuanceIP } := by
  obtain ⟨hnone, -, hother⟩ := h.fresh hsha hlength hfresh
  have hsingle : ∀ x ∈ [input], x.length = 32 := by simpa using hlength
  have h' := h.draw hsingle
  refine ⟨?_, h'.perIP, h'.perProfile, ?_, h'.lengths, ?_, h'.sessions, h'.created, h'.hello, ?_,
    h'.once, h'.complete⟩
  · intro ip
    show (r.bootstrapsPerIP.increment value.issuanceIP).count ip =
      (r.bootstraps.put (sha256 input) value).countP (unusedOf ip)
    rw [Table.count_increment, Table.countP_put_of_none _ _ _ hnone, h.unused]
    simp [unusedOf, hunused]
  · show ((r.bootstraps.put (sha256 input) value).size : ℤ) ≤ _
    rw [Table.size_put_of_none _ _ hnone]
    push_cast
    omega
  · show ∀ hash e, (r.bootstraps.put (sha256 input) value).get hash = some e → _
    intro hash e he
    rw [Table.get_put] at he
    split_ifs at he with hh
    · exact ⟨input, by simp, hh.symm⟩
    · exact h'.bootstraps hash e he
  · show ∀ c ∈ creations, ∀ e,
      (r.bootstraps.put (sha256 input) value).get c.bootstrap = some e → _
    intro c hc e he
    rw [Table.get_put_ne _ _ (hother c hc)] at he
    exact h.entries c hc e he

/-! ### Creating and finishing sessions -/

/-- A bootstrap that is consumed gives its slot back and is not consumed again. -/
theorem Ledger.consume (h : Ledger sha256 drawn creations r) (hsha : TellsTokensApart sha256)
    {input body : Bytes} (hlength : input.length = 32) (hfresh : input ∉ drawn)
    (hget : r.bootstraps.get hash = some value) (hunused : value.used = false)
    (hhello : parseHello body = true) (clientIP : String) :
    Ledger sha256 (drawn ++ [input])
      (creations ++ [⟨hash, body, (r.consume sha256 hash value clientIP (sha256 body) input).2⟩])
      (r.consume sha256 hash value clientIP (sha256 body) input).1 := by
  obtain ⟨-, hnone, -⟩ := h.fresh hsha hlength hfresh
  have hsingle : ∀ x ∈ [input], x.length = 32 := by simpa using hlength
  have h' := h.draw hsingle
  have hold : ∀ c ∈ creations, c.bootstrap ≠ hash := by
    intro c hc heq
    have := (h.entries c hc value (heq ▸ hget)).1
    rw [hunused] at this
    cases this
  have hcount := countP_unusedOf_release h hget
  unfold releaseUnusedBootstrapLocked at hcount
  rw [hunused, if_neg (by simp)] at hcount
  unfold Registry.consume newToken releaseUnusedBootstrapLocked
  dsimp only
  rw [hunused]
  refine ⟨?_, ?_, ?_, ?_, h'.lengths, ?_, ?_, ?_, ?_, ?_, ?_, ?_⟩
  · intro ip
    have hput := Table.countP_put_of_get (unusedOf ip) r.bootstraps (w := value.consumed
      (sha256 body) (Base64.encode input) r.nextSession) hget
    have hnew : unusedOf ip (value.consumed (sha256 body) (Base64.encode input)
      r.nextSession) = false := rfl
    rw [hnew, if_neg Bool.false_ne_true, ← hcount ip] at hput
    show (r.bootstrapsPerIP.decrement (· ≤ 0) value.issuanceIP).count ip =
      (r.bootstraps.put hash (value.consumed (sha256 body) (Base64.encode input)
        r.nextSession)).countP (unusedOf ip)
    dsimp only at hput
    omega
  · intro ip
    show (r.sessionsPerIP.increment clientIP).count ip = (r.sessions.put _ _).countP _
    rw [Table.count_increment, Table.countP_put_of_none _ _ _ hnone, h.perIP]
    simp
  · intro name
    show (r.sessionsPerProfile.increment value.profile.name).count name =
      (r.sessions.put _ _).countP _
    rw [Table.count_increment, Table.countP_put_of_none _ _ _ hnone, h.perProfile]
    simp
  · show ((r.bootstraps.put hash _).size : ℤ) ≤ _
    have hroom := h.room
    have hput := Table.countP_put_of_get (fun _ => true) r.bootstraps (w := value.consumed
      (sha256 body) (Base64.encode input) r.nextSession) hget
    rw [Table.size_eq_countP] at hroom ⊢
    simp only [if_true] at hput
    show _ ≤ r.config.limits.maxBootstrapsGlobal.toInt
    omega
  · intro hash' e he
    show ∃ x ∈ drawn ++ [input], sha256 x = hash'
    change (r.bootstraps.put hash _).get hash' = some e at he
    rw [Table.get_put] at he
    split_ifs at he with hh
    · subst hh
      exact drawn_append (h.bootstraps _ _ hget)
    · exact h'.bootstraps hash' e he
  · intro hash' l hl
    change (r.sessions.put (sha256 input) _).get hash' = some l at hl
    rw [Table.get_put] at hl
    split_ifs at hl with hh
    · exact ⟨input, by simp, hh.symm⟩
    · exact h'.sessions hash' l hl
  · intro c hc
    rcases List.mem_append.mp hc with hc | hc
    · exact h'.created c hc
    · rw [List.mem_singleton.mp hc]
      exact drawn_append (h.bootstraps _ _ hget)
  · intro c hc
    rcases List.mem_append.mp hc with hc | hc
    · exact h.hello c hc
    · rw [List.mem_singleton.mp hc]
      exact ⟨hhello, rfl⟩
  · intro c hc e he
    change (r.bootstraps.put hash _).get c.bootstrap = some e at he
    rcases List.mem_append.mp hc with hc | hc
    · rw [Table.get_put_ne _ _ (hold c hc)] at he
      exact h.entries c hc e he
    · rw [List.mem_singleton.mp hc] at he ⊢
      rw [Table.get_put_self] at he
      cases he
      exact ⟨rfl, rfl, rfl, rfl⟩
  · rw [List.map_append, List.nodup_append]
    refine ⟨h.once, List.nodup_singleton _, ?_⟩
    intro b hb b' hb' heq
    obtain ⟨c, hc, rfl⟩ := List.mem_map.mp hb
    rw [List.map_singleton, List.mem_singleton] at hb'
    exact hold c hc (heq.trans hb')
  · show r.sessionsCreated + 1 = _
    rw [List.length_append, h.complete]
    rfl

/-- A session that finishes gives its slots back. -/
theorem Ledger.dropSession (h : Ledger sha256 drawn creations r) {live : LiveSession}
    (hget : r.sessions.get hash = some live) (now : ℤ) (order : List Bytes) :
    Ledger sha256 drawn creations (r.dropSession hash live now order) := by
  have hgone : ∀ n : ℤ, 0 ≤ n → decide (n = 0) = true → n = 0 := by simp
  refine ⟨h.unused, ?_, ?_, h.room, h.lengths, h.bootstraps, ?_, h.created, h.hello, h.entries,
    h.once, h.complete⟩
  · intro ip
    have hpos : 1 ≤ r.sessionsPerIP.count live.clientIP := by
      rw [h.perIP]
      exact Table.countP_pos _ _ hget (by simp)
    have hcount := Table.count_decrement hgone r.sessionsPerIP hpos ip
    rw [h.perIP, Table.countP_del_of_get _ _ hget] at hcount
    show (r.sessionsPerIP.decrement _ live.clientIP).count ip = (r.sessions.del hash).countP _
    simp only [decide_eq_true_eq] at hcount
    omega
  · intro name
    have hpos : 1 ≤ r.sessionsPerProfile.count live.profile.name := by
      rw [h.perProfile]
      exact Table.countP_pos _ _ hget (by simp)
    have hcount := Table.count_decrement hgone r.sessionsPerProfile hpos name
    rw [h.perProfile, Table.countP_del_of_get _ _ hget] at hcount
    show (r.sessionsPerProfile.decrement _ live.profile.name).count name =
      (r.sessions.del hash).countP _
    simp only [decide_eq_true_eq] at hcount
    omega
  · intro hash' l hl
    change (r.sessions.del hash).get hash' = some l at hl
    rw [Table.get_del] at hl
    split_ifs at hl
    exact h.sessions hash' l hl

theorem Ledger.sessionFinished (h : Ledger sha256 drawn creations r) (session : ℕ) (now : ℤ)
    (order : List Bytes) : Ledger sha256 drawn creations (r.sessionFinished session now order) := by
  have hremove : ∀ r : Registry F, Ledger sha256 drawn creations r →
      Ledger sha256 drawn creations { r.removeBootstraps (fun current =>
        current.session = some session) with
          sessionsClosed := (r.removeBootstraps fun current =>
            current.session = some session).sessionsClosed + 1 } := fun r h =>
    (h.removeBootstraps _).congr rfl rfl rfl rfl rfl rfl rfl
  unfold Registry.sessionFinished
  cases hfind : r.sessions.entries.find? fun e => e.2.session = session with
  | none => exact hremove r h
  | some e =>
      have hget := Table.get_of_mem _ (List.mem_of_find?_eq_some hfind)
      exact hremove _ (h.dropSession hget now order)

/-! ### What each operation does to the books -/

/-- The used entries of `r` that have not expired at `now` are still in `r'`. -/
def KeepsUsed (now : ℤ) (r r' : Registry F) : Prop :=
  ∀ hash e, r.bootstraps.get hash = some e → e.used = true → ¬ e.expires < now →
    r'.bootstraps.get hash = some e

theorem KeepsUsed.refl (now : ℤ) (r : Registry F) : KeepsUsed now r r := fun _ _ h _ _ => h

theorem KeepsUsed.trans {now : ℤ} {r₁ r₂ r₃ : Registry F} (h : KeepsUsed now r₁ r₂)
    (h' : KeepsUsed now r₂ r₃) : KeepsUsed now r₁ r₃ :=
  fun hash e he hu hx => h' hash e (h hash e he hu hx) hu hx

theorem removeBootstrapLocked_bootstraps (r : Registry F) (hash : Bytes) (value : Bootstrap) :
    (r.removeBootstrapLocked hash value).bootstraps = r.bootstraps.del hash ∧
      (r.removeBootstrapLocked hash value).config = r.config := by
  unfold removeBootstrapLocked releaseUnusedBootstrapLocked
  split_ifs <;> exact ⟨rfl, rfl⟩

theorem KeepsUsed.remove {now : ℤ} (hget : r.bootstraps.get hash = some value)
    (hvalue : value.expires < now ∨ value.used = false) :
    KeepsUsed now r (r.removeBootstrapLocked hash value) := by
  intro hash' e he hu hx
  rw [(removeBootstrapLocked_bootstraps r hash value).1, Table.get_del_ne _ ?_]
  · exact he
  · rintro rfl
    cases hget.symm.trans he
    rcases hvalue with hlt | hnot
    · exact hx hlt
    · rw [hu] at hnot
      cases hnot

/-- The expiry of bootstraps keeps the configuration and the used entries. -/
theorem expire_keeps (r : Registry F) (now : ℤ) :
    (r.removeExpiredBootstrapsLocked now).config = r.config ∧
      KeepsUsed now r (r.removeExpiredBootstrapsLocked now) := by
  have h : (r.removeBootstraps fun value => value.expires < now).config = r.config ∧
      KeepsUsed now r (r.removeBootstraps fun value => value.expires < now) := by
    apply removeBootstraps_induct (I := fun r' : Registry F => r'.config = r.config ∧
      KeepsUsed now r r') (r := r)
    · intro r' hash value hget hgone h
      exact ⟨(removeBootstrapLocked_bootstraps r' hash value).2.trans h.1,
        h.2.trans (.remove hget (.inl (by simpa using hgone)))⟩
    · exact ⟨rfl, .refl now r⟩
  exact h

section
variable [Float64 F]

/-- `IssueBootstrap` keeps the books, and the pool limit evicts no used entry. -/
theorem Ledger.addBootstrap (h : Ledger sha256 drawn creations r)
    (hsha : TellsTokensApart sha256) {input : Bytes} (hlength : input.length = 32)
    (hfresh : input ∉ drawn) (profile : Profile) (clientIP : String) (now : ℤ)
    (order : List Bytes) :
    Ledger sha256 (drawn ++ [input]) creations
        (r.addBootstrap sha256 profile clientIP now input order).1 ∧
      KeepsUsed now r (r.addBootstrap sha256 profile clientIP now input order).1 := by
  have hdraw : ∀ r : Registry F, Ledger sha256 drawn creations r →
      Ledger sha256 (drawn ++ [input]) creations r := fun r h => h.draw (by simpa using hlength)
  obtain ⟨hconfig, hkeeps⟩ := expire_keeps r now
  have hexpired := h.expire now
  unfold Registry.addBootstrap
  dsimp only
  generalize r.removeExpiredBootstrapsLocked now = r₁ at hexpired hconfig hkeeps
  rw [← hconfig]
  by_cases hclosed : r.closed = true
  · rw [if_pos hclosed]
    exact ⟨hdraw r h, .refl now r⟩
  rw [if_neg hclosed]
  by_cases hip : r₁.config.limits.maxBootstrapsPerIP ≠ 0 ∧
      r₁.config.limits.maxBootstrapsPerIP.toInt ≤ r₁.bootstrapsPerIP.count clientIP
  · rw [if_pos hip]
    exact ⟨(hdraw r₁ hexpired).congr rfl rfl rfl rfl rfl rfl rfl, hkeeps⟩
  rw [if_neg hip]
  generalize takeRate r₁.bootstrapRate now r₁.config.limits.newBootstrapsPerMinute
    r₁.config.limits.newBootstrapsBurst = rate
  by_cases hrate : rate.2 = false
  · rw [if_pos hrate]
    exact ⟨(hdraw r₁ hexpired).congr rfl rfl rfl rfl rfl rfl rfl, hkeeps⟩
  rw [if_neg hrate]
  -- The pool has room, or an unused entry makes room.
  have hissue : ∀ r₂ : Registry F, Ledger sha256 drawn creations r₂ → KeepsUsed now r r₂ →
      (r₂.bootstraps.size : ℤ) < r₂.config.limits.maxBootstrapsGlobal.toInt →
      Ledger sha256 (drawn ++ [input]) creations { r₂ with
        bootstraps := r₂.bootstraps.put (sha256 input) {
          expires := now + r₂.config.bootstrapLifetime
          profile
          issuanceIP := clientIP }
        bootstrapsPerIP := r₂.bootstrapsPerIP.increment clientIP } ∧
      KeepsUsed now r { r₂ with
        bootstraps := r₂.bootstraps.put (sha256 input) {
          expires := now + r₂.config.bootstrapLifetime
          profile
          issuanceIP := clientIP }
        bootstrapsPerIP := r₂.bootstrapsPerIP.increment clientIP } := by
    intro r₂ h₂ hk₂ hroom
    refine ⟨h₂.issue hsha hlength hfresh hroom rfl, ?_⟩
    intro hash e he hu hx
    have hne : hash ≠ sha256 input := by
      rintro rfl
      have := hk₂ _ e he hu hx
      rw [(h₂.fresh hsha hlength hfresh).1] at this
      cases this
    show (r₂.bootstraps.put (sha256 input) _).get hash = some e
    rw [Table.get_put_ne _ _ hne]
    exact hk₂ hash e he hu hx
  have hrated : Ledger sha256 drawn creations { r₁ with bootstrapRate := rate.1 } :=
    hexpired.congr rfl rfl rfl rfl rfl rfl rfl
  by_cases hfull : r₁.config.limits.maxBootstrapsGlobal.toInt ≤ r₁.bootstraps.size
  · rw [if_pos hfull]
    unfold evictOldestUnusedBootstrapLocked
    cases hold : ({ r₁ with bootstrapRate := rate.1 } : Registry F).oldestUnused order with
    | none => exact ⟨(hdraw r₁ hexpired).congr rfl rfl rfl rfl rfl rfl rfl, hkeeps⟩
    | some oldest =>
        obtain ⟨hget, hunused⟩ := oldestUnused_spec order oldest hold
        have hremoved := hrated.remove hget
        obtain ⟨hboot, hconf⟩ := removeBootstrapLocked_bootstraps
          { r₁ with bootstrapRate := rate.1 } oldest.1 oldest.2
        refine hissue _ hremoved (.trans hkeeps (.remove hget (.inr hunused))) ?_
        have hroom := hrated.room
        rw [Table.size_eq_countP, Table.countP_del_of_get _ _ hget, if_pos rfl] at hroom
        rw [hboot, hconf, Table.size_eq_countP]
        omega
  · rw [if_neg hfull]
    exact hissue { r₁ with bootstrapRate := rate.1 } hrated hkeeps (by simpa using hfull)

/-- `Create` refuses without a trace, answers a retry without a trace, or consumes. -/
theorem create_cases (r : Registry F) (token clientIP : String) (body : Bytes) (now : ℤ)
    (random : Option Bytes) :
    (∃ e, e ≠ .random ∧ ∃ hits, r.create sha256 token clientIP body now random =
        ({ r with limitHits := hits }, .error e)) ∨
      (∃ rate rates, r.create sha256 token clientIP body now random =
        ({ r with sessionRate := rate, profileSessionRates := rates }, .error .random)) ∨
      (∃ result, r.create sha256 token clientIP body now random = (r, .ok result)) ∨
      ∃ hash entry rate rates input, parseHello body = true ∧
        tokenHash sha256 token = some hash ∧ r.bootstraps.get hash = some entry ∧
        entry.used = false ∧ ¬ r.sessionLimitReached entry.profile clientIP ∧
        random = some input ∧
        r.create sha256 token clientIP body now random =
          ((({ r with sessionRate := rate, profileSessionRates := rates } : Registry F).consume
              sha256 hash entry clientIP (sha256 body) input).1,
            .ok (({ r with sessionRate := rate, profileSessionRates := rates } :
              Registry F).consume sha256 hash entry clientIP (sha256 body) input).2) := by
  unfold create
  by_cases hhello : parseHello body = false
  · rw [if_pos hhello]
    exact .inl ⟨.protocol, by simp, r.limitHits, rfl⟩
  rw [if_neg hhello]
  cases htoken : tokenHash sha256 token with
  | none => exact .inl ⟨.authentication, by simp, r.limitHits, rfl⟩
  | some hash =>
      dsimp only
      cases hget : r.bootstraps.get hash with
      | none => exact .inl ⟨.authentication, by simp, r.limitHits, rfl⟩
      | some entry =>
          dsimp only
          by_cases hexpired : entry.expires < now
          · rw [if_pos hexpired]
            exact .inl ⟨.authentication, by simp, r.limitHits, rfl⟩
          rw [if_neg hexpired]
          cases hused : entry.used with
          | true =>
              rw [if_pos rfl]
              cases entry.session with
              | none => exact .inl ⟨.authentication, by simp, r.limitHits, rfl⟩
              | some session =>
                  dsimp only
                  split_ifs
                  · exact .inl ⟨.authentication, by simp, r.limitHits, rfl⟩
                  · exact .inr (.inr (.inl ⟨_, rfl⟩))
          | false =>
              rw [if_neg (by simp)]
              unfold createSession
              by_cases hlimit : r.sessionLimitReached entry.profile clientIP
              · rw [if_pos hlimit]
                exact .inl ⟨.limit, by simp, r.limitHits + 1, rfl⟩
              rw [if_neg hlimit]
              dsimp only
              cases allowProfileRate r.sessionRate r.profileSessionRates entry.profile.name now
                  r.config.limits.newSessionsPerMinute r.config.limits.newSessionsBurst
                  (r.config.profileLimits entry.profile).newSessionsPerMinute
                  (r.config.profileLimits entry.profile).newSessionsBurst with
              | none => exact .inl ⟨.limit, by simp, r.limitHits + 1, rfl⟩
              | some rates =>
                  cases random with
                  | none => exact .inr (.inl ⟨rates.1, rates.2, rfl⟩)
                  | some input =>
                      exact .inr (.inr (.inr ⟨hash, entry, rates.1, rates.2, input,
                        by simpa using hhello, rfl, hget, hused, hlimit, rfl, rfl⟩))

theorem Ledger.after {R : Run F} (h : Ledger sha256 R.drawn R.creations R.registry)
    (hsha : TellsTokensApart sha256) (op : Op)
    (hfresh : ∀ x ∈ op.random, x.length = 32 ∧ x ∉ R.drawn) :
    Ledger sha256 (R.after sha256 op).drawn (R.after sha256 op).creations
      (R.after sha256 op).registry := by
  have hdraw : ∀ r : Registry F, Ledger sha256 R.drawn R.creations r →
      Ledger sha256 (R.drawn ++ op.random.toList) R.creations r := fun r h =>
    h.draw fun x hx => (hfresh x (by simpa using hx)).1
  unfold Run.after
  cases op with
  | issueBootstrap profile clientIP now random order =>
      show Ledger sha256 (R.drawn ++ random.toList) (R.creations ++ [])
        (R.registry.issueBootstrap sha256 profile clientIP now random order).1
      rw [List.append_nil]
      unfold issueBootstrap
      cases profile.bind fun p => R.registry.matchCapability p.capability with
      | none => exact hdraw _ h
      | some profile =>
          cases random with
          | none => exact hdraw _ h
          | some input =>
              obtain ⟨hlength, hnew⟩ := hfresh input rfl
              exact (h.addBootstrap hsha hlength hnew profile clientIP now order).1
  | create token clientIP body now random =>
      show Ledger sha256 (R.drawn ++ random.toList) (R.creations ++ (Op.creation sha256
        R.registry (.create token clientIP body now random)).toList)
        (R.registry.create sha256 token clientIP body now random).1
      unfold Op.creation
      dsimp only
      rcases @create_cases F sha256 _ R.registry token clientIP body now random with
        ⟨e, -, hits, heq⟩ | ⟨rate, rates, heq⟩ | ⟨result, heq⟩ |
        ⟨hash, entry, rate, rates, input, hhello, htoken, hget, hunused, -, rfl, heq⟩
      · rw [heq]
        cases tokenHash sha256 token <;>
          exact (List.append_nil R.creations).symm ▸
            (hdraw _ h).congr rfl rfl rfl rfl rfl rfl rfl
      · rw [heq]
        cases tokenHash sha256 token <;>
          exact (List.append_nil R.creations).symm ▸
            (hdraw _ h).congr rfl rfl rfl rfl rfl rfl rfl
      · rw [heq]
        cases tokenHash sha256 token with
        | none => exact (List.append_nil R.creations).symm ▸ hdraw _ h
        | some hash =>
            dsimp only
            rw [if_pos rfl]
            exact (List.append_nil R.creations).symm ▸ hdraw _ h
      · obtain ⟨hlength, hnew⟩ := hfresh input rfl
        rw [heq, htoken]
        dsimp only
        have hnext : ∀ r : Registry F, (r.consume sha256 hash entry clientIP (sha256 body)
            input).1.nextSession ≠ r.nextSession := fun r => Nat.succ_ne_self _
        have hrated : Ledger sha256 R.drawn R.creations
            { R.registry with sessionRate := rate, profileSessionRates := rates } :=
          h.congr rfl rfl rfl rfl rfl rfl rfl
        rw [if_neg (hnext { R.registry with
          sessionRate := rate, profileSessionRates := rates })]
        exact hrated.consume hsha hlength hnew hget hunused hhello clientIP
  | hasBootstrap token now =>
      show Ledger sha256 (R.drawn ++ []) (R.creations ++ []) R.registry
      rw [List.append_nil, List.append_nil]
      exact h
  | expire now =>
      show Ledger sha256 (R.drawn ++ []) (R.creations ++ []) _
      rw [List.append_nil, List.append_nil]
      exact h.expire now
  | sessionFinished session now order =>
      show Ledger sha256 (R.drawn ++ []) (R.creations ++ []) _
      rw [List.append_nil, List.append_nil]
      exact h.sessionFinished session now order
  | shutdown =>
      show Ledger sha256 (R.drawn ++ []) (R.creations ++ []) _
      rw [List.append_nil, List.append_nil]
      exact h.congr rfl rfl rfl rfl rfl rfl rfl

theorem Reachable.ledger {config : Config} {R : Run F} (hsha : TellsTokensApart sha256)
    (h : Reachable sha256 config R) : Ledger sha256 R.drawn R.creations R.registry := by
  induction h with
  | start =>
      refine ⟨fun _ => rfl, fun _ => rfl, fun _ => rfl, ?_, by simp, ?_, ?_, by simp, by simp,
        by simp, List.nodup_nil, rfl⟩
      · have hpos := Config.Limits.validate_positive config.valid
          config.limits.maxBootstrapsGlobal (by simp [Config.Limits.positive])
        have := Int64.lt_iff_toInt_lt.mp hpos
        rw [Int64.toInt_zero] at this
        exact this.le
      · intro hash e he
        cases he
      · intro hash l hl
        cases hl
  | step op hfresh _ ih => exact ih.after hsha op hfresh

/-! ### The law -/

/-- Bootstraps are one-shot and exactly accounted. -/
structure OneShot (sha256 : Bytes → Bytes) (R : Run F) : Prop where
  /-- Every session was created from a bootstrap, and no two from the same. -/
  complete : R.registry.sessionsCreated = R.creations.length
  once : (R.creations.map (·.bootstrap)).Nodup
  /-- A retry of the `Create` gets its answer again, and nothing changes. -/
  retry : ∀ c ∈ R.creations, ∀ e, R.registry.bootstraps.get c.bootstrap = some e →
    ∀ token clientIP now random, tokenHash sha256 token = some c.bootstrap →
      ¬ e.expires < now →
      R.registry.create sha256 token clientIP c.body now random = (R.registry, .ok c.result)
  /-- A refusal changes nothing but a metric. -/
  refused : ∀ token clientIP body now random e,
    (R.registry.create sha256 token clientIP body now random).2 = .error e → e ≠ .random →
    ∃ hits, (R.registry.create sha256 token clientIP body now random).1 =
      { R.registry with limitHits := hits }
  /-- The slots of an address are its unused entries. -/
  perIP : ∀ ip, R.registry.bootstrapsPerIP.count ip =
    R.registry.bootstraps.countP fun e => !e.used && e.issuanceIP = ip
  /-- The pool is bounded. -/
  room : (R.registry.bootstraps.size : ℤ) ≤ R.registry.config.limits.maxBootstrapsGlobal.toInt
  /-- The pool limit evicts no used entry. -/
  kept : ∀ profile clientIP now random order,
    (∀ x ∈ random, x.length = 32 ∧ x ∉ R.drawn) →
    ∀ hash e, R.registry.bootstraps.get hash = some e → e.used = true → ¬ e.expires < now →
      (R.registry.issueBootstrap sha256 profile clientIP now random order).1.bootstraps.get
        hash = some e

/-- **Bootstraps are one-shot and exactly accounted** in every run, whatever the order of the
operations and the readings of the clock. -/
theorem bootstraps_one_shot (hsha : TellsTokensApart sha256) {config : Config} {R : Run F}
    (h : Reachable sha256 config R) : OneShot sha256 R := by
  have hl := h.ledger hsha
  refine ⟨hl.complete, hl.once, ?_, ?_, hl.unused, hl.room, ?_⟩
  · intro c hc e he token clientIP now random htoken hexpires
    obtain ⟨hused, hdigest, htok, hsession⟩ := hl.entries c hc e he
    obtain ⟨hhello, hwelcome⟩ := hl.hello c hc
    unfold create
    rw [hhello, if_neg (by simp), htoken]
    dsimp only
    rw [he]
    dsimp only
    rw [if_neg hexpires, hused, if_pos rfl, hsession]
    dsimp only
    rw [hdigest, if_neg (by simp), htok, ← hwelcome]
  · intro token clientIP body now random e he hne
    rcases @create_cases F sha256 _ R.registry token clientIP body now random with
      ⟨e', -, hits, heq⟩ | ⟨rate, rates, heq⟩ | ⟨result, heq⟩ |
      ⟨hash, entry, rate, rates, input, -, -, -, -, -, -, heq⟩
    · rw [heq]
      exact ⟨hits, rfl⟩
    · rw [heq] at he
      cases he
      exact absurd rfl hne
    · rw [heq] at he
      cases he
    · rw [heq] at he
      cases he
  · intro profile clientIP now random order hfresh hash e he hu hx
    unfold issueBootstrap
    cases profile.bind fun p => R.registry.matchCapability p.capability with
    | none => exact he
    | some profile =>
        cases random with
        | none => exact he
        | some input =>
            obtain ⟨hlength, hnew⟩ := hfresh input rfl
            exact (hl.addBootstrap hsha hlength hnew profile clientIP now order).2 hash e he hu hx

end

/-- The default configuration with one profile. -/
def oneProfile : Config where
  limits := Config.defaults
  bootstrapLifetime := 120 * 10 ^ 9
  profiles := [{ name := "alpha", capability := zeroDigest }]
  valid := Config.defaults_valid
  profilesValid := by decide +kernel
  budgetValid := Config.defaults_budgetValid

/-- A bootstrap is issued and a session created, twice over. -/
def createdOnce : Run ℚ :=
  let token := Base64.encode (List.replicate 32 1)
  let hello := encode .hello 0 [1]
  let R : Run ℚ := { registry := newRegistry oneProfile }
  let R := R.after id (.issueBootstrap (some { name := "alpha", capability := zeroDigest })
    "198.51.100.31" 0 (some (List.replicate 32 1)) [])
  let R := R.after id (.create token "198.51.100.32" hello 1 (some (List.replicate 32 2)))
  R.after id (.create token "198.51.100.33" hello 2 (some (List.replicate 32 3)))

theorem bootstraps_one_shot_created_once :
    createdOnce.creations.length = 1 ∧ createdOnce.registry.sessions.size = 1 ∧
      OneShot id createdOnce := by
  refine ⟨by decide +kernel, by decide +kernel, ?_⟩
  have hstart : Reachable (F := ℚ) id oneProfile { registry := newRegistry oneProfile } := .start
  refine bootstraps_one_shot (fun a b _ _ h => h) (.step _ ?_ (.step _ ?_ (.step _ ?_ hstart)))
  · decide +kernel
  · decide +kernel
  · decide +kernel

end Registry

end TproxyServer
