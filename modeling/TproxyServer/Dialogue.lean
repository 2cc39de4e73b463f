import Mathlib.Tactic

/-! # Programs that call and are answered

`Dialogue Q A α` is a finite program that calls its environment: a call `q : Q` is answered by
an `A q`, on which the rest of the program depends.  A run is described by its transcript, the
calls with their answers.

`wp may must d post t` is the weakest precondition of `d` after the transcript `t`, against an
environment that answers as `may` allows, where the program owes `must` before a call. -/

/-- Programs over the calls `Q`, each with its own type of answers. -/
inductive Dialogue (Q : Type) (A : Q → Type) (α : Type) where
  | done (a : α)
  | ask (q : Q) (next : A q → Dialogue Q A α)

namespace Dialogue

variable {Q : Type} {A : Q → Type} {α β : Type}

/-- A call and its answer. -/
abbrev Exchange (A : Q → Type) := (q : Q) × A q

def bind : Dialogue Q A α → (α → Dialogue Q A β) → Dialogue Q A β
  | done a, f => f a
  | ask q next, f => ask q fun x => (next x).bind f

instance : Monad (Dialogue Q A) where
  pure := done
  bind := bind

/-- Make one call and return its answer. -/
def call (q : Q) : Dialogue Q A (A q) := ask q done

@[simp] theorem done_bind (a : α) (f : α → Dialogue Q A β) : (done a >>= f) = f a := rfl

@[simp] theorem pure_bind' (a : α) (f : α → Dialogue Q A β) :
    ((pure a : Dialogue Q A α) >>= f) = f a := rfl

@[simp] theorem call_bind (q : Q) (f : A q → Dialogue Q A β) : (call q >>= f) = ask q f := rfl

/-! ### Running -/

/-- The program returns `a`, its calls being answered as in the transcript. -/
inductive Runs : Dialogue Q A α → List (Exchange A) → α → Prop
  | done (a : α) : Runs (done a) [] a
  | ask {q : Q} {next : A q → Dialogue Q A α} {t : List (Exchange A)} {a : α} (x : A q) :
      Runs (next x) t a → Runs (ask q next) (⟨q, x⟩ :: t) a

/-- The run against an environment that answers by a function. -/
def play (answer : (q : Q) → A q) : Dialogue Q A α → List (Exchange A) × α
  | done a => ([], a)
  | ask q next =>
      let r := (next (answer q)).play answer
      (⟨q, answer q⟩ :: r.1, r.2)

theorem runs_play (answer : (q : Q) → A q) (d : Dialogue Q A α) :
    Runs d (d.play answer).1 (d.play answer).2 := by
  induction d with
  | done a => exact .done a
  | ask q next ih => exact .ask _ (ih _)

theorem play_answers (answer : (q : Q) → A q) (d : Dialogue Q A α) :
    ∀ e ∈ (d.play answer).1, e.2 = answer e.1 := by
  induction d with
  | done a => simp [play]
  | ask q next ih =>
      intro e he
      rcases List.mem_cons.mp he with rfl | he
      · rfl
      · exact ih _ e he

/-! ### Weakest preconditions -/

/-- Whether the environment may answer so, after what was said before. -/
abbrev Permission (A : Q → Type) := List (Exchange A) → (q : Q) → A q → Prop

/-- Whether the program may call so, after what was said before. -/
abbrev Duty (A : Q → Type) := List (Exchange A) → Q → Prop

def wp (may : Permission A) (must : Duty A) :
    Dialogue Q A α → (List (Exchange A) → α → Prop) → List (Exchange A) → Prop
  | done a, post, t => post t a
  | ask q next, post, t => must t q ∧ ∀ x, may t q x → (next x).wp may must post (t ++ [⟨q, x⟩])

section
variable {may may' : Permission A} {must : Duty A} {post post' : List (Exchange A) → α → Prop}
  {t : List (Exchange A)}

@[simp] theorem wp_done (a : α) : (done a).wp may must post t ↔ post t a := Iff.rfl

@[simp] theorem wp_pure (a : α) :
    (pure a : Dialogue Q A α).wp may must post t ↔ post t a := Iff.rfl

theorem wp_ite {c : Prop} [Decidable c] {d e : Dialogue Q A α} :
    (if c then d else e).wp may must post t ↔
      (c → d.wp may must post t) ∧ (¬ c → e.wp may must post t) := by
  split_ifs with h <;> simp [h]

/-- A transcript that the environment may give and the program may ask for. -/
def Proper (may : Permission A) (must : Duty A) :
    List (Exchange A) → List (Exchange A) → Prop
  | _, [] => True
  | t, e :: rest => must t e.1 ∧ may t e.1 e.2 ∧ Proper may must (t ++ [e]) rest

/-- The transcript keeps to what the environment may answer. -/
def Permitted (may : Permission A) : List (Exchange A) → List (Exchange A) → Prop
  | _, [] => True
  | t, e :: rest => may t e.1 e.2 ∧ Permitted may (t ++ [e]) rest

theorem permitted_of_forall {P : (q : Q) → A q → Prop} {rest : List (Exchange A)}
    (h : ∀ e ∈ rest, P e.1 e.2) : Permitted (fun _ q x => P q x) t rest := by
  induction rest generalizing t with
  | nil => trivial
  | cons e rest ih => exact ⟨h e (by simp), ih fun e' he => h e' (by simp [he])⟩

/-- What the program called for was its due at that time. -/
theorem Proper.split {l₁ l₂ : List (Exchange A)} {e : Exchange A}
    (h : Proper may must t (l₁ ++ e :: l₂)) : must (t ++ l₁) e.1 := by
  induction l₁ generalizing t with
  | nil => simpa using h.1
  | cons e' l₁ ih => simpa using ih h.2.2

/-- What the program called for was its due. -/
theorem Proper.calls {P : Q → Prop} {rest : List (Exchange A)}
    (h : Proper may (fun _ q => P q) t rest) : ∀ e ∈ rest, P e.1 := by
  induction rest generalizing t with
  | nil => simp
  | cons e rest ih =>
      intro e' he
      rcases List.mem_cons.mp he with rfl | he
      · exact h.1
      · exact ih h.2.2 e' he

theorem wp_sound {d : Dialogue Q A α} {rest : List (Exchange A)} {a : α}
    (h : d.wp may must post t) (hr : Runs d rest a) (hmay : Permitted may t rest) :
    post (t ++ rest) a ∧ Proper may must t rest := by
  induction hr generalizing t with
  | done a => exact ⟨by simpa using h, trivial⟩
  | @ask q next rest a x _ ih =>
      obtain ⟨hp, hproper⟩ := ih (h.2 x hmay.1) hmay.2
      exact ⟨by simpa using hp, h.1, hmay.1, hproper⟩

end

/-! ### How a program may end -/

/-- Whatever it is answered, the program returns something that `P` holds of. -/
def Ends (P : α → Prop) : Dialogue Q A α → Prop
  | done a => P a
  | ask _ next => ∀ x, (next x).Ends P

section
variable {P : α → Prop}

theorem Ends.of_runs {d : Dialogue Q A α} {t : List (Exchange A)} {a : α} (h : d.Ends P)
    (hr : Runs d t a) : P a := by
  induction hr with
  | done a => exact h
  | ask x _ ih => exact ih (h x)

theorem ends_ite {c : Prop} [Decidable c] {d e : Dialogue Q A α} (h : c → d.Ends P)
    (h' : ¬ c → e.Ends P) : (if c then d else e).Ends P := by
  split_ifs with hc
  · exact h hc
  · exact h' hc

end

end Dialogue
