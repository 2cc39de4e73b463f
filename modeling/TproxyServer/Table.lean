import Mathlib.Data.List.AList
import Mathlib.Algebra.BigOperators.Group.List.Basic
import Mathlib.Algebra.Order.Monoid.Prod
import Mathlib.Tactic

/-! # Finite tables and their totals

`Table K V` is Mathlib's `AList` at a constant family: a finite map with an executable
lookup.  `total f t` adds `f` over the values of `t`; the two equations `total_put` and
`total_eq_get_add_del` say how it moves when one entry is written or deleted, which is all
an accounting invariant over a table needs. -/

/-- Finite maps from `K` to `V`. -/
abbrev Table (K V : Type) := AList (fun _ : K => V)

namespace Table

variable {K V M : Type} [DecidableEq K]

/-- The value stored under `k`. -/
def get (t : Table K V) (k : K) : Option V := t.lookup k

/-- Write `v` under `k`. -/
def put (t : Table K V) (k : K) (v : V) : Table K V := t.insert k v

/-- Delete `k`. -/
def del (t : Table K V) (k : K) : Table K V := t.erase k

/-- Number of keys. -/
def size (t : Table K V) : ℕ := t.keys.length

/-- The empty table. -/
def nil : Table K V := ∅

@[simp] theorem get_nil (k : K) : (nil : Table K V).get k = none := rfl

@[simp] theorem get_put_self (t : Table K V) (k : K) (v : V) : (t.put k v).get k = some v :=
  AList.lookup_insert t

theorem get_put_ne (t : Table K V) {k k' : K} (v : V) (h : k' ≠ k) :
    (t.put k v).get k' = t.get k' :=
  AList.lookup_insert_ne h

theorem get_put (t : Table K V) (k k' : K) (v : V) :
    (t.put k v).get k' = if k' = k then some v else t.get k' := by
  split_ifs with h
  · subst h; exact get_put_self t k' v
  · exact get_put_ne t v h

@[simp] theorem get_del_self (t : Table K V) (k : K) : (t.del k).get k = none :=
  AList.lookup_erase k t

theorem get_del_ne (t : Table K V) {k k' : K} (h : k' ≠ k) : (t.del k).get k' = t.get k' :=
  AList.lookup_erase_ne h

theorem get_del (t : Table K V) (k k' : K) :
    (t.del k).get k' = if k' = k then none else t.get k' := by
  split_ifs with h
  · subst h; exact get_del_self t k'
  · exact get_del_ne t h

/-- Apply `f` to every value. -/
def mapValues {W : Type} (f : V → W) (t : Table K V) : Table K W :=
  ⟨t.entries.map (fun e => ⟨e.1, f e.2⟩), by
    have hk : (t.entries.map (fun e => (⟨e.1, f e.2⟩ : Sigma fun _ : K => W))).keys =
        t.entries.keys := by simp [List.keys, Function.comp_def]
    rw [List.NodupKeys, hk]
    exact t.nodupKeys⟩

theorem get_mapValues {W : Type} (f : V → W) (t : Table K V) (k : K) :
    (t.mapValues f).get k = (t.get k).map f := by
  obtain ⟨l, hl⟩ := t
  show List.dlookup k (l.map fun e => (⟨e.1, f e.2⟩ : Sigma fun _ : K => W)) =
    (List.dlookup k l).map f
  clear hl
  induction l with
  | nil => rfl
  | cons e l ih =>
      obtain ⟨k', v⟩ := e
      by_cases h : k = k'
      · subst h; simp [List.dlookup_cons_eq]
      · rw [List.map_cons, List.dlookup_cons_ne _ (⟨k', v⟩ : Sigma fun _ : K => V) h,
          List.dlookup_cons_ne _ (⟨k', f v⟩ : Sigma fun _ : K => W) h]
        exact ih

theorem mapValues_put {W : Type} (f : V → W) (t : Table K V) (k : K) (v : V) :
    (t.put k v).mapValues f = (t.mapValues f).put k (f v) := by
  have herase : ∀ l : List (Sigma fun _ : K => V),
      (List.kerase k l).map (fun e => (⟨e.1, f e.2⟩ : Sigma fun _ : K => W)) =
        List.kerase k (l.map fun e => (⟨e.1, f e.2⟩ : Sigma fun _ : K => W)) := by
    intro l
    induction l with
    | nil => rfl
    | cons e l ih =>
        by_cases h : k = e.1
        · subst h
          simp
        · simp [h, ih]
  refine AList.ext ?_
  exact congrArg (List.cons (⟨k, f v⟩ : Sigma fun _ : K => W)) (herase t.entries)

theorem mem_keys_iff (t : Table K V) (k : K) : k ∈ t.keys ↔ t.get k ≠ none := by
  rw [get, Ne, AList.lookup_eq_none, not_not]
  exact AList.mem_keys.symm

/-- An entry of the table is what is stored under its key. -/
theorem get_of_mem (t : Table K V) {e : Sigma fun _ : K => V} (h : e ∈ t.entries) :
    t.get e.1 = some e.2 :=
  List.mem_dlookup t.nodupKeys h

/-! ### Totals -/

variable [AddCommMonoid M]

/-- The sum of `f` over the values of the table. -/
def total (f : V → M) (t : Table K V) : M := (t.entries.map (fun e => f e.2)).sum

omit [DecidableEq K] in
@[simp] theorem total_nil (f : V → M) : total f (nil : Table K V) = 0 := rfl

theorem total_put (f : V → M) (t : Table K V) (k : K) (v : V) :
    total f (t.put k v) = f v + total f (t.del k) := by
  exact List.sum_cons

theorem del_eq_self (t : Table K V) {k : K} (h : t.get k = none) : t.del k = t := by
  apply AList.ext
  have hk : k ∉ t.keys := by rw [mem_keys_iff]; simp [h]
  exact List.kerase_of_notMem_keys hk

theorem total_eq_get_add_del (f : V → M) (t : Table K V) {k : K} {v : V}
    (h : t.get k = some v) : total f t = f v + total f (t.del k) := by
  have hk : k ∈ t.entries.keys := (mem_keys_iff t k).mpr (by simp [h])
  obtain ⟨v', l₁, l₂, hl₁, hl, he⟩ := List.exists_of_kerase hk
  have hv : v' = v := by
    have hmem : (⟨k, v'⟩ : Sigma fun _ : K => V) ∈ t.entries := by rw [hl]; simp
    exact Option.some.inj ((get_of_mem t hmem).symm.trans h)
  subst hv
  show (t.entries.map fun e => f e.2).sum =
    f v' + ((List.kerase k t.entries).map fun e => f e.2).sum
  rw [he, hl]
  simp only [List.map_append, List.map_cons, List.sum_append, List.sum_cons]
  rw [← add_assoc, add_comm (List.sum _) (f v'), add_assoc]

theorem total_put_of_get (f : V → M) (t : Table K V) {k : K} {v w : V}
    (h : t.get k = some v) : f v + total f (t.put k w) = f w + total f t := by
  rw [total_put, total_eq_get_add_del f t h, add_left_comm]

theorem total_put_of_none (f : V → M) (t : Table K V) {k : K} (w : V)
    (h : t.get k = none) : total f (t.put k w) = f w + total f t := by
  rw [total_put, del_eq_self t h]

omit [DecidableEq K] in
theorem total_nonneg [PartialOrder M] [IsOrderedAddMonoid M] (f : V → M) (t : Table K V)
    (h : ∀ e ∈ t.entries, 0 ≤ f e.2) : 0 ≤ total f t := by
  refine List.sum_nonneg fun x hx => ?_
  obtain ⟨e, he, rfl⟩ := List.mem_map.mp hx
  exact h e he

theorem total_eq_zero (f : V → M) (t : Table K V) (h : ∀ k v, t.get k = some v → f v = 0) :
    total f t = 0 := by
  apply List.sum_eq_zero
  intro x hx
  obtain ⟨e, he, rfl⟩ := List.mem_map.mp hx
  exact h e.1 e.2 (get_of_mem t he)

theorem put_put_self (t : Table K V) (k : K) (v w : V) : (t.put k v).put k w = t.put k w :=
  AList.insert_insert t

theorem size_put_of_none (t : Table K V) {k : K} (v : V) (h : t.get k = none) :
    (t.put k v).size = t.size + 1 := by
  have hk : k ∉ t.keys := by rw [mem_keys_iff]; simp [h]
  simp only [size, put, AList.keys_insert, List.length_cons]
  rw [List.erase_of_not_mem hk]

theorem size_eq_card (t : Table K V) : t.size = t.keys.toFinset.card :=
  (List.toFinset_card_of_nodup t.keys_nodup).symm

/-- A table whose keys lie in a set is no larger than the set. -/
theorem size_le_card {t : Table K V} {S : Finset K} (h : ∀ k, t.get k ≠ none → k ∈ S) :
    t.size ≤ S.card := by
  rw [size_eq_card]
  apply Finset.card_le_card
  intro k hk
  exact h k ((mem_keys_iff t k).mp (List.mem_toFinset.mp hk))

/-- Fewer keys, smaller size. -/
theorem size_le_of_keys {W : Type} {t : Table K V} {t' : Table K W}
    (h : ∀ k, t'.get k ≠ none → t.get k ≠ none) : t'.size ≤ t.size := by
  rw [size_eq_card t]
  apply size_le_card
  intro k hk
  exact List.mem_toFinset.mpr ((mem_keys_iff t k).mpr (h k hk))

/-! ### Counting -/

/-- How many values satisfy `p`. -/
def countP (p : V → Bool) (t : Table K V) : ℤ := total (fun v => if p v then 1 else 0) t

omit [DecidableEq K] in
@[simp] theorem countP_nil (p : V → Bool) : countP p (nil : Table K V) = 0 := rfl

theorem countP_put_of_none (p : V → Bool) (t : Table K V) {k : K} (v : V)
    (h : t.get k = none) : countP p (t.put k v) = (if p v then 1 else 0) + countP p t :=
  total_put_of_none _ t v h

theorem countP_put_of_get (p : V → Bool) (t : Table K V) {k : K} {v w : V}
    (h : t.get k = some v) :
    (if p v then 1 else 0) + countP p (t.put k w) = (if p w then 1 else 0) + countP p t :=
  total_put_of_get (fun v => if p v then (1 : ℤ) else 0) t h

theorem countP_del_of_get (p : V → Bool) (t : Table K V) {k : K} {v : V}
    (h : t.get k = some v) : countP p t = (if p v then 1 else 0) + countP p (t.del k) :=
  total_eq_get_add_del _ t h

omit [DecidableEq K] in
theorem countP_nonneg (p : V → Bool) (t : Table K V) : 0 ≤ countP p t := by
  apply total_nonneg
  intro e _
  split_ifs <;> simp

theorem countP_pos (p : V → Bool) (t : Table K V) {k : K} {v : V} (h : t.get k = some v)
    (hp : p v = true) : 1 ≤ countP p t := by
  have := countP_nonneg p (t.del k)
  rw [countP_del_of_get p t h, if_pos hp]
  omega

/-- What only the selected values have, and none of them more than `b`. -/
theorem total_le_countP {f : V → ℕ} {p : V → Bool} {b : ℕ} {t : Table K V}
    (h : ∀ k v, t.get k = some v → f v ≤ if p v then b else 0) :
    ((total f t : ℕ) : ℤ) ≤ countP p t * b := by
  unfold total countP total
  rw [Nat.cast_list_sum, List.map_map, ← List.sum_map_mul_right]
  refine List.sum_le_sum fun e he => ?_
  have hle := h e.1 e.2 (get_of_mem t he)
  split_ifs at hle ⊢ <;> simp_all

omit [DecidableEq K] in
theorem size_eq_countP (t : Table K V) : (t.size : ℤ) = countP (fun _ => true) t := by
  simp [size, countP, total, AList.keys, List.keys]

/-- The count kept under a key of a map of counters: a missing key counts zero. -/
def count (t : Table K ℤ) (k : K) : ℤ := (t.get k).getD 0

/-- `m[k]++`. -/
def increment (t : Table K ℤ) (k : K) : Table K ℤ := t.put k (t.count k + 1)

/-- `m[k]--`, and `delete(m, k)` where nothing is left. -/
def decrement (gone : ℤ → Bool) (t : Table K ℤ) (k : K) : Table K ℤ :=
  if gone (t.count k - 1) then t.del k else t.put k (t.count k - 1)

@[simp] theorem count_nil (k : K) : (nil : Table K ℤ).count k = 0 := rfl

theorem count_increment (t : Table K ℤ) (k k' : K) :
    (t.increment k).count k' = (if k = k' then 1 else 0) + t.count k' := by
  unfold increment count
  rw [get_put]
  split_ifs with h h' h'
  · subst h
    exact add_comm _ _
  · exact absurd h.symm h'
  · exact absurd h'.symm h
  · exact (zero_add _).symm

theorem count_decrement {gone : ℤ → Bool} (hgone : ∀ n, 0 ≤ n → gone n = true → n = 0)
    (t : Table K ℤ) {k : K} (hpos : 1 ≤ t.count k) (k' : K) :
    t.count k' = (if k = k' then 1 else 0) + (t.decrement gone k).count k' := by
  unfold decrement
  by_cases hk : k = k'
  · subst hk
    by_cases hg : gone (t.count k - 1) = true
    · have hone := hgone _ (by omega) hg
      have hzero : (t.del k).count k = 0 := by simp [count]
      rw [if_pos hg, if_pos rfl, hzero]
      omega
    · have hput : (t.put k (t.count k - 1)).count k = t.count k - 1 := by simp [count]
      rw [if_neg hg, if_pos rfl, hput]
      omega
  · rw [if_neg hk, zero_add]
    unfold count
    split_ifs
    · rw [get_del_ne _ (Ne.symm hk)]
    · rw [get_put_ne _ _ (Ne.symm hk)]

/-! ### Counters that partition a table -/

variable {K' : Type} [DecidableEq K']

/-- A map of counters counts the values that `p` selects, by their `f`. -/
def Partitions (counts : Table K' ℤ) (p : V → Bool) (f : V → K') (t : Table K V) : Prop :=
  ∀ k, counts.count k = countP (fun v => p v && f v = k) t

omit [DecidableEq K] in
theorem Partitions.pos {counts : Table K' ℤ} {p : V → Bool} {f : V → K'} {t : Table K V}
    (h : Partitions counts p f t) {e : Sigma fun _ : K => V} (he : e ∈ t.entries)
    (hp : p e.2 = true) : counts.get (f e.2) ≠ none := by
  intro hnone
  have hcount := h (f e.2)
  rw [count, hnone, Option.getD_none, countP, total] at hcount
  have hle := List.single_le_sum (l := t.entries.map fun e' =>
    if (p e'.2 && f e'.2 = f e.2) = true then (1 : ℤ) else 0) (fun x hx => by
      obtain ⟨e', -, rfl⟩ := List.mem_map.mp hx
      split_ifs <;> simp) _ (List.mem_map_of_mem he)
  simp only [hp, decide_true, Bool.and_self, if_true] at hle
  omega

omit [DecidableEq K] in
/-- The counters add up to what is selected. -/
theorem Partitions.total_eq {counts : Table K' ℤ} {p : V → Bool} {f : V → K'} {t : Table K V}
    (h : Partitions counts p f t) : total (fun n => n) counts = countP p t := by
  have hkeys : total (fun n => n) counts = ∑ k ∈ counts.keys.toFinset, counts.count k := by
    rw [List.sum_toFinset _ counts.keys_nodup]
    show (counts.entries.map fun e => e.2).sum = ((counts.entries.map Sigma.fst).map _).sum
    rw [List.map_map]
    refine congrArg List.sum (List.map_congr_left fun e he => ?_)
    rw [Function.comp, count, get_of_mem counts he]
    rfl
  have hswap : ∀ (S : Finset K') (l : List (Sigma fun _ : K => V)),
      ∑ k ∈ S, (l.map fun e => if (p e.2 && f e.2 = k) = true then (1 : ℤ) else 0).sum =
        (l.map fun e => if p e.2 = true ∧ f e.2 ∈ S then (1 : ℤ) else 0).sum := by
    intro S l
    induction l with
    | nil => simp
    | cons e l ih =>
        simp only [List.map_cons, List.sum_cons, Finset.sum_add_distrib, ih]
        congr 1
        cases p e.2 <;> simp
  rw [hkeys, Finset.sum_congr rfl fun k _ => h k]
  unfold countP total
  rw [hswap]
  refine congrArg List.sum (List.map_congr_left fun e he => ?_)
  by_cases hp : p e.2 = true
  · have hmem : f e.2 ∈ counts.keys.toFinset :=
      List.mem_toFinset.mpr ((mem_keys_iff _ _).mpr (h.pos he hp))
    simp [hp, hmem]
  · simp [hp]

section
variable {counts : Table K' ℤ} {p : V → Bool} {f : V → K'} {t : Table K V} {k : K} {v w : V}

/-- A selected value is entered. -/
theorem Partitions.put (h : Partitions counts p f t) (hnone : t.get k = none)
    (hv : p v = true) : Partitions (counts.increment (f v)) p f (t.put k v) := by
  intro k'
  rw [count_increment, countP_put_of_none _ _ _ hnone, h k']
  simp [hv]

variable {gone : ℤ → Bool} (hgone : ∀ n, 0 ≤ n → gone n = true → n = 0)
include hgone

/-- A selected value is removed. -/
theorem Partitions.del (h : Partitions counts p f t) (hget : t.get k = some v)
    (hv : p v = true) : Partitions (counts.decrement gone (f v)) p f (t.del k) := by
  intro k'
  have hpos : 1 ≤ counts.count (f v) := by
    rw [h (f v)]
    exact countP_pos _ _ hget (by simp [hv])
  have hcount := count_decrement hgone counts hpos k'
  rw [h k', countP_del_of_get _ _ hget] at hcount
  simp only [hv, Bool.true_and, decide_eq_true_eq] at hcount
  omega

/-- A value is no longer selected. -/
theorem Partitions.unselect (h : Partitions counts p f t) (hget : t.get k = some v)
    (hv : p v = true) (hw : p w = false) :
    Partitions (counts.decrement gone (f v)) p f (t.put k w) := by
  intro k'
  have hpos : 1 ≤ counts.count (f v) := by
    rw [h (f v)]
    exact countP_pos _ _ hget (by simp [hv])
  have hcount := count_decrement hgone counts hpos k'
  have hput := countP_put_of_get (fun v => p v && f v = k') t (w := w) hget
  simp only [hv, hw, Bool.true_and, Bool.false_and, Bool.false_eq_true, if_false,
    decide_eq_true_eq, zero_add] at hput
  rw [h k'] at hcount
  omega

omit hgone in
/-- A value changes in nothing that counts. -/
theorem Partitions.same (h : Partitions counts p f t) (hget : t.get k = some v)
    (hp : p w = p v) (hf : f w = f v) : Partitions counts p f (t.put k w) := by
  intro k'
  have hput := countP_put_of_get (fun v => p v && f v = k') t (w := w) hget
  rw [hp, hf] at hput
  rw [h k', add_left_cancel hput]

end

/-! ### A total kept with its parts -/

/-- `n` counts the values that `p` selects, and `counts` counts them by their `f`. -/
structure Tallied (n : ℤ) (counts : Table K' ℤ) (p : V → Bool) (f : V → K')
    (t : Table K V) : Prop where
  total : n = countP p t
  parts : Partitions counts p f t

namespace Tallied

variable {n : ℤ} {counts : Table K' ℤ} {p : V → Bool} {f : V → K'} {t : Table K V} {k : K}
  {v w : V}

theorem put (h : Tallied n counts p f t) (hnone : t.get k = none) (hv : p v = true) :
    Tallied (n + 1) (counts.increment (f v)) p f (t.put k v) where
  total := by
    rw [countP_put_of_none _ _ _ hnone, if_pos hv, h.total]
    exact add_comm _ _
  parts := h.parts.put hnone hv

/-- Something that is counted leaves neither the total nor its part at zero. -/
theorem positive (h : Tallied n counts p f t) (hget : t.get k = some v)
    (hv : p v = true) : 1 ≤ n ∧ 1 ≤ counts.count (f v) := by
  constructor
  · rw [h.total]
    exact countP_pos _ _ hget hv
  · rw [h.parts (f v)]
    exact countP_pos _ _ hget (by simp [hv])

theorem del {gone : ℤ → Bool} (hgone : ∀ n, 0 ≤ n → gone n = true → n = 0)
    (h : Tallied n counts p f t) (hget : t.get k = some v) (hv : p v = true) :
    Tallied (n - 1) (counts.decrement gone (f v)) p f (t.del k) where
  total := by
    have := countP_del_of_get p t hget
    rw [if_pos hv, ← h.total] at this
    omega
  parts := h.parts.del hgone hget hv

theorem unselect {gone : ℤ → Bool} (hgone : ∀ n, 0 ≤ n → gone n = true → n = 0)
    (h : Tallied n counts p f t) (hget : t.get k = some v) (hv : p v = true)
    (hw : p w = false) :
    Tallied (n - 1) (counts.decrement gone (f v)) p f (t.put k w) where
  total := by
    have := countP_put_of_get p t (w := w) hget
    rw [if_pos hv, hw, if_neg Bool.false_ne_true, ← h.total] at this
    omega
  parts := h.parts.unselect hgone hget hv hw

theorem same (h : Tallied n counts p f t) (hget : t.get k = some v) (hp : p w = p v)
    (hf : f w = f v) : Tallied n counts p f (t.put k w) where
  total := by
    have := countP_put_of_get p t (w := w) hget
    rw [hp] at this
    rw [h.total, add_left_cancel this]
  parts := h.parts.same hget hp hf

/-- What is not counted can go. -/
theorem drop (h : Tallied n counts p f t) (hget : t.get k = some v) (hv : p v = false) :
    Tallied n counts p f (t.del k) where
  total := by
    have := countP_del_of_get p t hget
    rw [hv, if_neg Bool.false_ne_true, zero_add] at this
    rw [h.total, this]
  parts := by
    intro k'
    have := countP_del_of_get (fun v => p v && f v = k') t hget
    simp only [hv, Bool.false_and, Bool.false_eq_true, if_false, zero_add] at this
    rw [h.parts k', this]

end Tallied

/-- What is removed makes no part larger. -/
theorem count_decrement_le {gone : ℤ → Bool} (hgone : ∀ n, 0 ≤ n → gone n = true → n = 0)
    (t : Table K ℤ) {k : K} (hpos : 1 ≤ t.count k) (k' : K) :
    (t.decrement gone k).count k' ≤ t.count k' := by
  rw [count_decrement hgone t hpos k']
  split_ifs <;> omega

end Table
