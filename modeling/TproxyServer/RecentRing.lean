import Mathlib.Data.List.Rotate
import Mathlib.Data.List.DropRight
import Mathlib.Data.List.GetD
import Mathlib.Tactic

/-! # A circular buffer holds the recent end of a history

A buffer `order` of capacity `cap` with a write position `start` is filled by appending until
it has `cap` entries and from then on by overwriting the entry at `start`.  `Holds cap order
start hist` says that, read cyclically from `start`, the buffer lists the last `cap` entries
of the history `hist`; `Holds.push_room` and `Holds.push_full` are the two writes. -/

namespace RecentRing

variable {α : Type}

/-- Read cyclically from `start`, the buffer is the recent end of the history. -/
structure Holds (cap : ℕ) (order : List α) (start : ℕ) (hist : List α) : Prop where
  recent : order.rotate start = hist.rtake cap
  fresh : order.length < cap → start = 0
  within : order ≠ [] → start < order.length

theorem Holds.nil (cap : ℕ) : Holds cap ([] : List α) 0 [] :=
  ⟨by simp, fun _ => rfl, fun h => absurd rfl h⟩

theorem rtake_append_singleton (cap : ℕ) (hist : List α) (x : α) :
    (hist ++ [x]).rtake (cap + 1) = hist.rtake cap ++ [x] := by
  simp [List.rtake_concat_succ]

theorem rtake_eq_self {cap : ℕ} {hist : List α} (h : hist.length ≤ cap) :
    hist.rtake cap = hist := by
  simp [List.rtake, Nat.sub_eq_zero_of_le h]

theorem rtake_length (cap : ℕ) (hist : List α) :
    (hist.rtake cap).length = min cap hist.length := by
  simp only [List.rtake, List.length_drop]
  omega

/-- The recent end of a longer history depends on the recent end of the shorter one. -/
theorem rtake_append (cap : ℕ) (hist more : List α) :
    (hist.rtake cap ++ more).rtake cap = (hist ++ more).rtake cap := by
  simp only [List.rtake, List.length_append, List.length_drop]
  rw [List.drop_append, List.drop_append, List.drop_drop, List.length_drop]
  congr 2 <;> omega

/-- A list of at most `cap` entries that drops its head when a further one comes. -/
theorem rtake_push {cap : ℕ} (hcap : 0 < cap) {recent : List α} (hlen : recent.length ≤ cap)
    (x : α) : (recent ++ [x]).rtake cap =
      (if recent.length = cap then recent.tail else recent) ++ [x] := by
  simp only [List.rtake, List.length_append, List.length_singleton]
  split_ifs with hfull
  · cases recent with
    | nil =>
        simp only [List.length_nil] at hfull
        omega
    | cons y rest =>
        rw [hfull, Nat.add_sub_cancel_left]
        rfl
  · rw [show recent.length + 1 - cap = 0 by omega, List.drop_zero]

theorem Holds.length_eq {cap : ℕ} {order hist : List α} {start : ℕ}
    (h : Holds cap order start hist) : order.length = min cap hist.length := by
  rw [← List.length_rotate order start, h.recent, rtake_length]

theorem Holds.mem_iff {cap : ℕ} {order hist : List α} {start : ℕ}
    (h : Holds cap order start hist) (x : α) : x ∈ order ↔ x ∈ hist.rtake cap := by
  rw [← h.recent, List.mem_rotate]

/-- While there is room the new entry is appended. -/
theorem Holds.push_room {cap : ℕ} {order hist : List α} {start : ℕ}
    (h : Holds cap order start hist) (hroom : order.length < cap) (x : α) :
    Holds cap (order ++ [x]) start (hist ++ [x]) := by
  have hs := h.fresh hroom
  subst hs
  have hl := h.length_eq
  have hrec := h.recent
  rw [List.rotate_zero, rtake_eq_self (by omega)] at hrec
  refine ⟨?_, fun _ => rfl, fun _ => by simp⟩
  rw [List.rotate_zero, rtake_eq_self (by simp; omega), hrec]

/-- Reading a full buffer from its write position: first the entry to be overwritten. -/
theorem rotate_eq_cons {order : List α} {start : ℕ} (h : start < order.length) :
    order.rotate start = order[start] :: (order.drop (start + 1) ++ order.take start) := by
  rw [List.rotate_eq_drop_append_take h.le, List.drop_eq_getElem_cons h, List.cons_append]

theorem rotate_set_succ {order : List α} {start : ℕ} (h : start < order.length) (x : α) :
    (order.set start x).rotate ((start + 1) % (order.set start x).length) =
      order.drop (start + 1) ++ order.take start ++ [x] := by
  rw [List.rotate_mod, List.rotate_eq_drop_append_take (by simp; omega)]
  rw [List.drop_set_of_lt (by omega), List.take_set, List.append_assoc]
  congr 1
  have hlen : (order.take start).length = start := by
    rw [List.length_take]; omega
  rw [List.take_succ_eq_append_getElem h, List.set_append_right _ _ (by omega), hlen]
  simp

/-- In a full buffer the new entry takes the place of the oldest one, which is the one at the
write position. -/
theorem Holds.push_full {cap : ℕ} {order hist : List α} {start : ℕ}
    (h : Holds cap order start hist) (hcap : 0 < cap) (hfull : ¬ order.length < cap) (x d : α) :
    Holds cap (order.set start x) ((start + 1) % (order.set start x).length) (hist ++ [x]) ∧
      ∃ rest, hist.rtake cap = order.getD start d :: rest ∧
        (hist ++ [x]).rtake cap = rest ++ [x] := by
  have hl := h.length_eq
  have hne : order ≠ [] := by
    intro he
    rw [he] at hfull
    exact hfull (by simpa using hcap)
  have hs := h.within hne
  obtain ⟨c, rfl⟩ : ∃ c, cap = c + 1 := ⟨cap - 1, by omega⟩
  have hrec := h.recent
  rw [rotate_eq_cons hs] at hrec
  have hsucc : hist.rtake (c + 1) = order[start] :: hist.rtake c := by
    have hlen : hist.length - (c + 1) + 1 = hist.length - c := by omega
    have hlt : hist.length - (c + 1) < hist.length := by omega
    rw [List.rtake, List.drop_eq_getElem_cons hlt, hlen] at hrec ⊢
    rw [(List.cons.inj hrec).1]
    rfl
  rw [hsucc] at hrec
  have htail := (List.cons.inj hrec).2
  refine ⟨⟨?_, ?_, ?_⟩, hist.rtake c, ?_, rtake_append_singleton c hist x⟩
  · rw [rotate_set_succ hs, htail, rtake_append_singleton]
  · intro hlt
    rw [List.length_set] at hlt
    exact absurd hlt hfull
  · intro _
    exact Nat.mod_lt _ (by rw [List.length_set]; omega)
  · rw [hsucc, List.getD_eq_getElem _ _ hs]

end RecentRing
