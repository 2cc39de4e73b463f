import Mathlib.Tactic

/-! # Programs that interact with an environment

`Prog Q E P α` is a finite program that asks its environment yes/no questions (`Q`),
announces events (`E`), may panic (`P`) and otherwise returns an `α`.  It is the free
monad over these effects, so a stateful routine with callbacks is written in `do`
notation and run against any environment.

* `run` plays a program against a fixed list of answers.
* `Runs p es r` holds when some answers make `p` announce `es` and stop with `r`.
* `World` is an environment seen from the program's side: what may be asked, what may be
  answered, and a ghost state `L` that follows both.  `wp W p post l` is the weakest
  precondition of `p` against `W` from the ghost state `l`; its rules (`wp_bind`,
  `wp_mono`, ...) are the Hoare rules of the language, and `wp` is itself an invariant of
  a step by step execution (`wp_request`, `wp_note`), which is what an interleaved run of many
  programs against one shared environment needs. -/

namespace Interaction

/-- Programs over queries `Q`, events `E` and panics `P`. -/
inductive Prog (Q E P α : Type) where
  | done (a : α)
  | ask (q : Q) (k : Bool → Prog Q E P α)
  | note (e : E) (p : Prog Q E P α)
  | panic (why : P)

namespace Prog

variable {Q E P L α β : Type}

/-- Sequencing. -/
def bind : Prog Q E P α → (α → Prog Q E P β) → Prog Q E P β
  | done a, f => f a
  | ask q k, f => ask q (fun b => (k b).bind f)
  | note e p, f => note e (p.bind f)
  | panic w, _ => panic w

instance : Monad (Prog Q E P) where
  pure := done
  bind := bind

/-- Ask one question and return the answer. -/
def request (q : Q) : Prog Q E P Bool := ask q done

/-- Announce one event. -/
def announce (e : E) : Prog Q E P Unit := note e (done ())

@[simp] theorem done_bind (a : α) (f : α → Prog Q E P β) : (done a >>= f) = f a := rfl

@[simp] theorem pure_bind' (a : α) (f : α → Prog Q E P β) :
    ((pure a : Prog Q E P α) >>= f) = f a := rfl

@[simp] theorem announce_bind (e : E) (f : Unit → Prog Q E P β) :
    (announce e >>= f) = note e (f ()) := rfl

@[simp] theorem panic_bind (w : P) (f : α → Prog Q E P β) :
    ((panic w : Prog Q E P α) >>= f) = panic w := rfl

/-! ### Running -/

/-- Play `p` against the answers `as` (a missing answer is `true`). -/
def run : Prog Q E P α → List Bool → List E × Except P α
  | done a, _ => ([], .ok a)
  | ask _ k, as => (k (as.headD true)).run as.tail
  | note e p, as => (e :: (p.run as).1, (p.run as).2)
  | panic w, _ => ([], .error w)

/-- Some answers make `p` announce `es` and stop with `r`. -/
inductive Runs : Prog Q E P α → List E → Except P α → Prop
  | done (a : α) : Runs (done a) [] (.ok a)
  | ask {q : Q} {k : Bool → Prog Q E P α} {es : List E} {r : Except P α} (b : Bool) :
      Runs (k b) es r → Runs (ask q k) es r
  | note {e : E} {p : Prog Q E P α} {es : List E} {r : Except P α} :
      Runs p es r → Runs (note e p) (e :: es) r
  | panic (w : P) : Runs (panic w) [] (.error w)

theorem runs_run (p : Prog Q E P α) (as : List Bool) : Runs p (p.run as).1 (p.run as).2 := by
  induction p generalizing as with
  | done a => exact .done a
  | ask q k ih => exact .ask _ (ih _ _)
  | note e p ih => exact .note (ih _)
  | panic w => exact .panic w

theorem runs_of_run {p : Prog Q E P α} {es : List E} {r : Except P α} (as : List Bool)
    (h : p.run as = (es, r)) : Runs p es r := by
  have := runs_run p as
  rwa [h] at this

/-- Every run is the play of some list of answers. -/
theorem exists_run {p : Prog Q E P α} {es : List E} {r : Except P α} (h : Runs p es r) :
    ∃ as, p.run as = (es, r) := by
  induction h with
  | done a => exact ⟨[], rfl⟩
  | ask b _ ih =>
      obtain ⟨as, has⟩ := ih
      exact ⟨b :: as, has⟩
  | note _ ih =>
      obtain ⟨as, has⟩ := ih
      exact ⟨as, by rw [run, has]⟩
  | panic w => exact ⟨[], rfl⟩

/-- The panic that a run ends with. -/
def faultOf : List E × Except P α → Option P
  | (_, .ok _) => none
  | (_, .error w) => some w

theorem runs_of_fault {p : Prog Q E P α} {w : P} (as : List Bool)
    (h : faultOf (p.run as) = some w) : Runs p (p.run as).1 (.error w) := by
  have hr := runs_run p as
  generalize p.run as = r at h hr ⊢
  obtain ⟨es, res⟩ := r
  cases res with
  | ok a => cases h
  | error w' => cases h; exact hr

theorem runs_pure {a : α} {es : List E} {r : Except P α} :
    Runs (pure a : Prog Q E P α) es r ↔ es = [] ∧ r = .ok a := by
  constructor
  · intro h; cases h; exact ⟨rfl, rfl⟩
  · rintro ⟨rfl, rfl⟩; exact .done a

end Prog

/-! ### Weakest preconditions -/

/-- An environment as a program sees it.  `demands` is what the program owes before a
question, `answers` what it may assume of the answer, `notes` how the ghost state follows an
event, and `tolerates` the panics that are nobody's fault. -/
structure World (Q E P L : Type) where
  demands : L → Q → Prop
  answers : L → Q → Bool → L → Prop
  notes : L → E → L
  tolerates : P → Prop

section
open Prog
variable {Q E P L α β : Type} (W : World Q E P L)

/-- Weakest precondition of `p` against `W`. -/
def wp : Prog Q E P α → (L → α → Prop) → L → Prop
  | .done a, post, l => post l a
  | .ask q k, post, l => W.demands l q ∧ ∀ b l', W.answers l q b l' → wp (k b) post l'
  | .note e p, post, l => wp p post (W.notes l e)
  | .panic w, _, _ => W.tolerates w

variable {W}

@[simp] theorem wp_done {a : α} {post : L → α → Prop} {l : L} :
    wp W (.done a) post l ↔ post l a := Iff.rfl

@[simp] theorem wp_pure {a : α} {post : L → α → Prop} {l : L} :
    wp W (pure a) post l ↔ post l a := Iff.rfl

@[simp] theorem wp_request {q : Q} {post : L → Bool → Prop} {l : L} :
    wp W (request q) post l ↔
      W.demands l q ∧ ∀ b l', W.answers l q b l' → post l' b := Iff.rfl

@[simp] theorem wp_note {e : E} {p : Prog Q E P α} {post : L → α → Prop} {l : L} :
    wp W (.note e p) post l ↔ wp W p post (W.notes l e) := Iff.rfl

@[simp] theorem wp_announce {e : E} {post : L → Unit → Prop} {l : L} :
    wp W (announce e) post l ↔ post (W.notes l e) () := Iff.rfl

@[simp] theorem wp_panic {w : P} {post : L → α → Prop} {l : L} :
    wp W (.panic w) post l ↔ W.tolerates w := Iff.rfl

/-- The rule of sequencing. -/
theorem wp_bind {p : Prog Q E P α} {f : α → Prog Q E P β} {post : L → β → Prop} {l : L} :
    wp W (p >>= f) post l ↔ wp W p (fun l' a => wp W (f a) post l') l := by
  induction p generalizing l with
  | done a => exact Iff.rfl
  | ask q k ih =>
      exact and_congr_right fun _ => forall_congr' fun b => forall_congr' fun l' =>
        imp_congr_right fun _ => ih b
  | note e p ih => exact ih
  | panic w => exact Iff.rfl

/-- The rule of consequence. -/
theorem wp_mono {p : Prog Q E P α} {post post' : L → α → Prop} {l : L}
    (h : wp W p post l) (hp : ∀ l' a, post l' a → post' l' a) : wp W p post' l := by
  induction p generalizing l with
  | done a => exact hp _ _ h
  | ask q k ih => exact ⟨h.1, fun b l' ha => ih b (h.2 b l' ha)⟩
  | note e p ih => exact ih h
  | panic w => exact h

/-- Sequencing and consequence in one step. -/
theorem wp_seq {p : Prog Q E P α} {f : α → Prog Q E P β} {mid : L → α → Prop}
    {post : L → β → Prop} {l : L} (h : wp W p mid l)
    (hf : ∀ l' a, mid l' a → wp W (f a) post l') : wp W (p >>= f) post l :=
  wp_bind.mpr (wp_mono h hf)

/-- Where nothing is demanded and every panic tolerated, nothing can go wrong. -/
theorem wp_true (hd : ∀ l q, W.demands l q) (ht : ∀ w, W.tolerates w) {p : Prog Q E P α} {l : L} :
    wp W p (fun _ _ => True) l := by
  induction p generalizing l with
  | done a => trivial
  | ask q k ih => exact ⟨hd l q, fun b l' _ => ih b⟩
  | note e p ih => exact ih
  | panic w => exact ht w

/-- Two postconditions at once. -/
theorem wp_and {p : Prog Q E P α} {post post' : L → α → Prop} {l : L} (h : wp W p post l)
    (h' : wp W p post' l) : wp W p (fun l a => post l a ∧ post' l a) l := by
  induction p generalizing l with
  | done a => exact ⟨h, h'⟩
  | ask q k ih => exact ⟨h.1, fun b l₁ ha => ih b (h.2 b l₁ ha) (h'.2 b l₁ ha)⟩
  | note e p ih => exact ih h h'
  | panic w => exact h

/-- What every answer and every event does to the ghost state, a whole program does to it. -/
theorem wp_relates {R : L → L → Prop} (hrefl : ∀ l, R l l)
    (htrans : ∀ {l l' l''}, R l l' → R l' l'' → R l l'')
    (hanswers : ∀ {l q b l'}, W.answers l q b l' → R l l') (hnotes : ∀ l e, R l (W.notes l e))
    {p : Prog Q E P α} {post : L → α → Prop} {l : L} (h : wp W p post l) :
    wp W p (fun l' a => post l' a ∧ R l l') l := by
  induction p generalizing l with
  | done a => exact ⟨h, hrefl l⟩
  | ask q k ih =>
      refine ⟨h.1, fun b l₁ ha => wp_mono (ih b (h.2 b l₁ ha)) ?_⟩
      rintro l₂ a ⟨hpost, hr⟩
      exact ⟨hpost, htrans (hanswers ha) hr⟩
  | note e p ih =>
      refine wp_mono (ih h) ?_
      rintro l₂ a ⟨hpost, hr⟩
      exact ⟨hpost, htrans (hnotes l e) hr⟩
  | panic w => exact h

/-- An environment that answers anything and remembers nothing but the events. -/
def World.Open (W : World Q E P L) : Prop := ∀ l q b, W.answers l q b l

/-- What is proved against an open environment may be used against any other. -/
theorem wp_with {L' : Type} {V : World Q E P L'} (hV : V.Open) {p : Prog Q E P α}
    {post : L → α → Prop} {post' : L' → α → Prop} {l : L} {l' : L'} (h : wp W p post l)
    (h' : wp V p post' l') : wp W p (fun l a => post l a ∧ ∃ l', post' l' a) l := by
  induction p generalizing l l' with
  | done a => exact ⟨h, l', h'⟩
  | ask q k ih => exact ⟨h.1, fun b l₁ ha => ih b (h.2 b l₁ ha) (h'.2 b l' (hV l' q b))⟩
  | note e p ih => exact ih h h'
  | panic w => exact h

/-- The environment that reads its answers from a list (a missing one is `true`). -/
def scripted : World Q E P (List Bool) where
  demands _ _ := True
  answers l _ b l' := b = l.headD true ∧ l' = l.tail
  notes l _ := l
  tolerates _ := True

/-- What is proved against a list of answers holds of the run that it makes. -/
theorem wp_scripted {p : Prog Q E P α} {post : List Bool → α → Prop} {l : List Bool}
    (h : wp scripted p post l) {es : List E} {a : α} (hr : p.run l = (es, .ok a)) :
    ∃ l', post l' a := by
  induction p generalizing l es with
  | done a' => cases hr; exact ⟨l, h⟩
  | ask q k ih => exact ih _ (h.2 _ _ ⟨rfl, rfl⟩) hr
  | note e p ih =>
      rw [run] at hr
      exact ih h (Prod.ext rfl (Prod.mk.inj hr).2)
  | panic w => cases hr

/-- The same, and nothing may panic. -/
def strict : World Q E P (List Bool) where
  demands _ _ := True
  answers l _ b l' := b = l.headD true ∧ l' = l.tail
  notes l _ := l
  tolerates _ := False

/-- What is proved against it is a run. -/
theorem wp_strict {p : Prog Q E P α} {post : List Bool → α → Prop} {l : List Bool}
    (h : wp strict p post l) : ∃ es a l', p.run l = (es, .ok a) ∧ post l' a := by
  induction p generalizing l with
  | done a => exact ⟨[], a, l, rfl, h⟩
  | ask q k ih => exact ih _ (h.2 _ _ ⟨rfl, rfl⟩)
  | note e p ih =>
      obtain ⟨es, a, l', hr, hpost⟩ := ih h
      refine ⟨e :: es, a, l', ?_, hpost⟩
      rw [run, show p.run l = (es, .ok a) from hr]
  | panic w => exact h.elim

/-- Soundness: a run that ends satisfies the postcondition. -/
theorem wp_sound (hW : W.Open) {p : Prog Q E P α} {post : L → α → Prop} {l : L}
    (h : wp W p post l) {es : List E} {a : α} (hr : Runs p es (.ok a)) :
    post (es.foldl W.notes l) a := by
  induction p generalizing l es with
  | done a' => cases hr; exact h
  | ask q k ih => cases hr with | ask b hr => exact ih b (h.2 b l (hW l q b)) hr
  | note e p ih => cases hr with | note hr => exact ih h hr
  | panic w => cases hr

/-- Soundness: a panic that is reached is a tolerated one. -/
theorem wp_sound_panic (hW : W.Open) {p : Prog Q E P α} {post : L → α → Prop} {l : L}
    (h : wp W p post l) {es : List E} {w : P} (hr : Runs p es (.error w)) :
    W.tolerates w := by
  induction p generalizing l es with
  | done a' => cases hr
  | ask q k ih => cases hr with | ask b hr => exact ih b (h.2 b l (hW l q b)) hr
  | note e p ih => cases hr with | note hr => exact ih h hr
  | panic w' => cases hr; exact h

end

/-! ### Questions whose answers do not matter -/

section
open Prog
variable {Q E P L α β : Type} {I : Q → Prop}

/-- The program goes on alike whatever it is answered to a question in `I`. -/
def Prog.Ignores (I : Q → Prop) : Prog Q E P α → Prop
  | .done _ => True
  | .ask q k => (I q → k true = k false) ∧ ∀ b, (k b).Ignores I
  | .note _ p => p.Ignores I
  | .panic _ => True

theorem Prog.Ignores.ite {c : Prop} [Decidable c] {p q : Prog Q E P α} (hp : p.Ignores I)
    (hq : q.Ignores I) : (if c then p else q).Ignores I := by
  split_ifs
  · exact hp
  · exact hq

theorem Prog.Ignores.bind {p : Prog Q E P α} {f : α → Prog Q E P β} (h : p.Ignores I)
    (hf : ∀ a, (f a).Ignores I) : (p >>= f).Ignores I := by
  induction p with
  | done a => exact hf a
  | ask q k ih =>
      refine ⟨fun hq => ?_, fun b => ih b (h.2 b)⟩
      exact congrArg (· >>= f) (h.1 hq)
  | note e p ih => exact ih h
  | panic w => trivial

theorem Prog.Ignores.note {e : E} {p : Prog Q E P α} (h : p.Ignores I) :
    (Prog.note e p).Ignores I := h

/-- Soundness against an environment that never gives certain answers, for a program that does
not look at them: they might as well have been given. -/
theorem wp_sound_ignoring {W : World Q E P L}
    (hW : ∀ l q b, W.demands l q → ∃ b', (b' = b ∨ I q) ∧ ∃ l', W.answers l q b' l')
    {p : Prog Q E P α} (hp : p.Ignores I) {post : L → α → Prop} {l : L} (h : wp W p post l)
    {es : List E} {a : α} (hr : Runs p es (.ok a)) : ∃ l', post l' a := by
  induction p generalizing l es with
  | done a' => cases hr; exact ⟨l, h⟩
  | ask q k ih =>
      cases hr with
      | ask b hr =>
          obtain ⟨b', hb, l', ha⟩ := hW l q b h.1
          have hsame : k b' = k b := by
            rcases hb with rfl | hq
            · rfl
            · cases b <;> cases b' <;> first | rfl | exact hp.1 hq | exact (hp.1 hq).symm
          exact ih b' (hp.2 b') (h.2 b' l' ha) (hsame ▸ hr)
  | note e p ih => cases hr with | note hr => exact ih hp h hr
  | panic w => cases hr

end

/-! ### What a program says -/

section
open Prog
variable {Q E P α β : Type} {I : Q → Prop} {J : E → Prop} {K : P → Prop}

/-- The program asks nothing but `I`, announces nothing but `J` and panics with nothing but
`K`. -/
def Prog.Says (I : Q → Prop) (J : E → Prop) (K : P → Prop) : Prog Q E P α → Prop
  | .done _ => True
  | .ask q k => I q ∧ ∀ b, (k b).Says I J K
  | .note e p => J e ∧ p.Says I J K
  | .panic w => K w

theorem Prog.Says.mono {I' : Q → Prop} {J' : E → Prop} {K' : P → Prop} {p : Prog Q E P α}
    (h : p.Says I J K) (hI : ∀ q, I q → I' q) (hJ : ∀ e, J e → J' e) (hK : ∀ w, K w → K' w) :
    p.Says I' J' K' := by
  induction p with
  | done a => trivial
  | ask q k ih => exact ⟨hI q h.1, fun b => ih b (h.2 b)⟩
  | note e p ih => exact ⟨hJ e h.1, ih h.2⟩
  | panic w => exact hK w h

theorem Prog.Says.ite {c : Prop} [Decidable c] {p q : Prog Q E P α} (hp : p.Says I J K)
    (hq : q.Says I J K) : (if c then p else q).Says I J K := by
  split_ifs
  · exact hp
  · exact hq

theorem Prog.Says.bind {p : Prog Q E P α} {f : α → Prog Q E P β} (h : p.Says I J K)
    (hf : ∀ a, (f a).Says I J K) : (p >>= f).Says I J K := by
  induction p with
  | done a => exact hf a
  | ask q k ih => exact ⟨h.1, fun b => ih b (h.2 b)⟩
  | note e p ih => exact ⟨h.1, ih h.2⟩
  | panic w => exact h

theorem Prog.Says.note {e : E} {p : Prog Q E P α} (he : J e) (h : p.Says I J K) :
    (Prog.note e p).Says I J K := ⟨he, h⟩

theorem Prog.Says.events {p : Prog Q E P α} (h : p.Says I J K) {es : List E} {r : Except P α}
    (hr : Runs p es r) : ∀ e ∈ es, J e := by
  induction hr with
  | done a => simp
  | ask b _ ih => exact ih (h.2 b)
  | note _ ih =>
      intro e he
      rcases List.mem_cons.mp he with rfl | he
      · exact h.1
      · exact ih h.2 e he
  | panic w => simp

end

end Interaction
