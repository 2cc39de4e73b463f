import Mathlib.Data.List.Induction
import Mathlib.Data.Finset.Insert
import Mathlib.Logic.Relation

/-! # Stop and wait

A sender and a receiver over a network that loses, repeats, delays and reorders what it carries.

* **Sender.** It numbers its messages in the order in which it sends them, repeats the newest as
  often as it likes, and sends another one only when it has heard that the newest was taken.
* **Receiver.** It takes a copy of a message only if its number is the next, and acknowledges
  what it has taken, as often as it likes.
* **Network.** Any copy of any message sent so far can arrive, in any order, and so can any
  acknowledgement given so far.

Whatever happens, what was taken is what was sent, in its order and without repetition, up to the
newest message.  A system is shown to do this by a simulation (`Simulates`). -/

namespace StopAndWait

variable {α σ : Type*}

/-- What there is to say of a sender and its receiver. -/
structure Link (α : Type*) where
  /-- In the order of sending; message `i` of the list has number `i`. -/
  sent : List α := []
  /-- How many of them the sender knows to be taken. -/
  heard : ℕ := 0
  taken : List α := []
  /-- The acknowledgements given so far: `n` says that the messages below `n` were taken. -/
  given : Set ℕ := ∅

/-- One thing happens. -/
inductive Link.Step : Link α → Link α → Prop
  | send {L : Link α} (a : α) (h : L.heard = L.sent.length) :
      Link.Step L { L with sent := L.sent ++ [a] }
  | take {L : Link α} {a : α} (h : L.sent[L.taken.length]? = some a) :
      Link.Step L { L with taken := L.taken ++ [a] }
  | give {L : Link α} {n : ℕ} (h : n ≤ L.taken.length) :
      Link.Step L { L with given := insert n L.given }
  | hear {L : Link α} (h : L.heard + 1 ∈ L.given) :
      Link.Step L { L with heard := L.heard + 1 }

/-- Any number of things happen. -/
def Link.Steps : Link α → Link α → Prop := Relation.ReflTransGen Link.Step

/-- The receiver is at most one message behind, and the sender at most one acknowledgement. -/
structure Link.InStep (L : Link α) : Prop where
  heard_le : L.heard ≤ L.taken.length
  sent_le : L.sent.length ≤ L.heard + 1
  taken_prefix : L.taken <+: L.sent
  given_le : ∀ n ∈ L.given, n ≤ L.taken.length

namespace Link

variable {L L' L'' : Link α}

theorem Step.steps (h : Step L L') : Steps L L' := Relation.ReflTransGen.single h

theorem Steps.refl (L : Link α) : Steps L L := Relation.ReflTransGen.refl

theorem Steps.trans (h : Steps L L') (h' : Steps L' L'') : Steps L L'' :=
  Relation.ReflTransGen.trans h h'

theorem InStep.start : ({} : Link α).InStep where
  heard_le := le_rfl
  sent_le := by simp
  taken_prefix := List.prefix_refl []
  given_le n hn := by cases hn

theorem InStep.taken_le (h : L.InStep) : L.taken.length ≤ L.sent.length :=
  h.taken_prefix.length_le

/-- One step keeps both sides in step. -/
theorem InStep.step (h : L.InStep) (hs : Step L L') : L'.InStep := by
  obtain ⟨hheard, hsent, htaken, hgiven⟩ := h
  cases hs with
  | send a hidle =>
      refine ⟨hheard, ?_, htaken.trans (List.prefix_append _ _), hgiven⟩
      simp [hidle]
  | @take a hnext =>
      have hlt := (List.getElem?_eq_some_iff.mp hnext).1
      have hlength : (L.taken ++ [a]).length = L.taken.length + 1 := by simp
      refine ⟨?_, hsent, ?_, fun n hn => ?_⟩
      · dsimp only
        omega
      · obtain ⟨rest, hrest⟩ := htaken
        dsimp only
        rw [← hrest, List.getElem?_append_right le_rfl, Nat.sub_self] at hnext
        cases rest with
        | nil => cases hnext
        | cons b rest =>
            cases hnext
            exact ⟨rest, by rw [← hrest]; simp⟩
      · have hle := hgiven n hn
        dsimp only
        omega
  | @give n hle =>
      refine ⟨hheard, hsent, htaken, fun m hm => ?_⟩
      rcases hm with rfl | hm
      · exact hle
      · exact hgiven m hm
  | hear hin =>
      refine ⟨hgiven _ hin, ?_, htaken, hgiven⟩
      dsimp only
      omega

theorem InStep.steps (h : L.InStep) (hs : Steps L L') : L'.InStep := by
  induction hs with
  | refl => exact h
  | tail _ hlast ih => exact ih.step hlast

/-- What is not taken yet is the newest message. -/
theorem InStep.taken_or_newest (h : L.InStep) :
    L.sent = L.taken ∨ ∃ a, L.sent = L.taken ++ [a] := by
  have hsent := h.sent_le
  have hheard := h.heard_le
  obtain ⟨rest, hrest⟩ := h.taken_prefix
  have hlength := congrArg List.length hrest
  rw [List.length_append] at hlength
  cases rest with
  | nil =>
      left
      rw [← hrest, List.append_nil]
  | cons a rest =>
      right
      refine ⟨a, ?_⟩
      cases rest with
      | nil => exact hrest.symm
      | cons b rest =>
          simp only [List.length_cons] at hlength
          omega

/-- Once the sender has heard of all its messages, all of them are taken. -/
theorem InStep.whole (h : L.InStep) (hheard : L.heard = L.sent.length) : L.taken = L.sent := by
  apply h.taken_prefix.eq_of_length
  have hle := h.heard_le
  have hle' := h.taken_le
  omega

end Link

/-! ### Simulation -/

/-- The states of a system are related to links so that what the system does, the link can do. -/
def Simulates (step : σ → σ → Prop) (rel : σ → Link α → Prop) : Prop :=
  ∀ s s' L, rel s L → step s s' → ∃ L', Link.Steps L L' ∧ rel s' L'

/-- What a system does in a run, the link can do. -/
theorem Simulates.run {step : σ → σ → Prop} {rel : σ → Link α → Prop} (h : Simulates step rel)
    {s s' : σ} {L : Link α} (hL : rel s L) (hrun : Relation.ReflTransGen step s s') :
    ∃ L', Link.Steps L L' ∧ rel s' L' := by
  induction hrun with
  | refl => exact ⟨L, .refl L, hL⟩
  | @tail s₁ s₂ _ hlast ih =>
      obtain ⟨L₁, hsteps, h₁⟩ := ih
      obtain ⟨L₂, hsteps', h₂⟩ := h s₁ s₂ L₁ h₁ hlast
      exact ⟨L₂, hsteps.trans hsteps', h₂⟩

/-- A system that starts in step stays in step. -/
theorem Simulates.inStep {step : σ → σ → Prop} {rel : σ → Link α → Prop} (h : Simulates step rel)
    {s s' : σ} {L : Link α} (hL : rel s L) (hin : L.InStep)
    (hrun : Relation.ReflTransGen step s s') : ∃ L', rel s' L' ∧ L'.InStep := by
  obtain ⟨L', hsteps, hL'⟩ := h.run hL hrun
  exact ⟨L', hL', hin.steps hsteps⟩

end StopAndWait
