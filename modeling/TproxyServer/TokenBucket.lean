import Mathlib.Algebra.Order.Field.Basic
import Mathlib.Tactic

/-! # Token buckets

A bucket holds at most `burst` tokens, gains `rate` of them a unit of time, and is asked for
one at a time.  `refill` is what it holds after some time has passed; refilling twice is
refilling once (`refill_refill`), so a refill may be put off.  `Spent` is the account of the
times at which tokens were taken: between any two of them there were no more than the bucket
and what it gained can pay for, whichever way the clock went. -/

namespace TokenBucket

variable {K : Type} [Field K] [LinearOrder K] [IsStrictOrderedRing K]
  {burst rate tokens last now elapsed later : K} {times : List K}

/-- The tokens after `elapsed` units of time. -/
def refill (burst rate tokens elapsed : K) : K := min burst (tokens + rate * elapsed)

omit [IsStrictOrderedRing K] in
theorem refill_le_burst : refill burst rate tokens elapsed ≤ burst := min_le_left _ _

omit [IsStrictOrderedRing K] in
theorem refill_le : refill burst rate tokens elapsed ≤ tokens + rate * elapsed := min_le_right _ _

theorem refill_full (h : 0 ≤ rate * elapsed) : refill burst rate burst elapsed = burst := by
  apply min_eq_left
  linarith

theorem refill_refill (h : 0 ≤ rate * later) :
    refill burst rate (refill burst rate tokens elapsed) later =
      refill burst rate tokens (elapsed + later) := by
  unfold refill
  have hlater : burst ≤ burst + rate * later := by linarith
  rw [← min_add_add_right, ← min_assoc, min_eq_left hlater, mul_add, add_assoc]

/-! ### The account of a bucket -/

/-- Tokens were taken at `times`, last at `last`, and `tokens` are left. -/
structure Spent (burst rate tokens last : K) (times : List K) : Prop where
  last_eq : times.getLast? = some last
  nonneg : 0 ≤ tokens
  left : ∀ (i : ℕ) t, times[i]? = some t →
    tokens + ((times.length : K) - i) ≤ burst + rate * (last - t)
  bound : ∀ (i j : ℕ) s t, i ≤ j → times[i]? = some s → times[j]? = some t →
    (j : K) - i + 1 ≤ burst + rate * (t - s)

/-- The first token is taken from a full bucket. -/
theorem Spent.first (h : 1 ≤ burst) : Spent burst rate (burst - 1) now [now] where
  last_eq := rfl
  nonneg := by linarith
  left i t ht := by
    obtain ⟨hi, rfl⟩ := List.getElem?_eq_some_iff.mp ht
    have hzero : i = 0 := by simpa using hi
    subst hzero
    simp
  bound i j s t hij hs ht := by
    obtain ⟨hi, rfl⟩ := List.getElem?_eq_some_iff.mp hs
    obtain ⟨hj, rfl⟩ := List.getElem?_eq_some_iff.mp ht
    have hi₀ : i = 0 := by simpa using hi
    have hj₀ : j = 0 := by simpa using hj
    subst hi₀ hj₀
    simpa using h

/-- Another token is taken after a refill. -/
theorem Spent.take (h : Spent burst rate tokens last times)
    (hone : 1 ≤ refill burst rate tokens (now - last)) :
    Spent burst rate (refill burst rate tokens (now - last) - 1) now (times ++ [now]) := by
  have hfull : refill burst rate tokens (now - last) ≤ burst := refill_le_burst
  have hgain : refill burst rate tokens (now - last) ≤ tokens + rate * (now - last) := refill_le
  generalize refill burst rate tokens (now - last) = filled at hone hfull hgain ⊢
  have hleft : ∀ (i : ℕ) t, (times ++ [now])[i]? = some t →
      filled - 1 + (((times ++ [now]).length : K) - i) ≤ burst + rate * (now - t) := by
    intro i t ht
    rw [List.length_append, List.length_singleton]
    push_cast
    by_cases hi : i < times.length
    · rw [List.getElem?_append_left hi] at ht
      have := h.left i t ht
      linear_combination this + hgain
    · have hlt := (List.getElem?_eq_some_iff.mp ht).1
      rw [List.length_append, List.length_singleton] at hlt
      have hilast : i = times.length := by omega
      subst hilast
      rw [List.getElem?_concat_length] at ht
      cases ht
      linear_combination hfull
  refine ⟨List.getLast?_concat, by linarith, hleft, fun i j s t hij hs ht => ?_⟩
  by_cases hj : j < times.length
  · rw [List.getElem?_append_left hj] at ht
    rw [List.getElem?_append_left (lt_of_le_of_lt hij hj)] at hs
    exact h.bound i j s t hij hs ht
  · have hlt := (List.getElem?_eq_some_iff.mp ht).1
    rw [List.length_append, List.length_singleton] at hlt
    have hjlast : j = times.length := by omega
    subst hjlast
    rw [List.getElem?_concat_length] at ht
    cases ht
    have := hleft i s hs
    rw [List.length_append, List.length_singleton] at this
    push_cast at this
    linarith

end TokenBucket
