import TproxyServer.Configuration
import TproxyServer.Manager

/-! # What start-up leaves for data

`ValidateBudget` and `changePendingBudget` take the control reserves of all sessions from the
global budget, each with its own integer division.  They agree, except where the reserves add up
to the budget itself: that is accepted, and leaves nothing for DATA. -/

namespace TproxyServer

variable {limits : Limits} {cls : PendingClass}

/-- The reserves of all sessions add up to exactly the global budget, in bytes or in items. -/
def Limits.ReservesAll (limits : Limits) : Prop :=
  (pendingControlReserve limits).1 * limits.maxSessionsGlobal = limits.maxPendingGlobal ∨
    (pendingControlReserve limits).2 * limits.maxSessionsGlobal = limits.maxPendingItemsGlobal

/-- DATA of a class has a budget, and a fresh manager grants one byte and one item of it. -/
structure CarriesDataGlobally (limits : Limits) (hpos : 0 < limits.maxSessionsGlobal)
    (cls : PendingClass) : Prop where
  bytes : 0 < (globalPendingLimits limits cls).1
  items : 0 < (globalPendingLimits limits cls).2
  granted : ∃ m, changePendingBudget { limits, sessions_pos := hpos } 1 1 cls = .ok (m, true)

/-- What is left of a limit that holds the reserves is nothing exactly where they fill it. -/
theorem withoutReserve_pos {limit reserve sessions : ℕ} (hpos : 0 < sessions)
    (h : ¬ limit / sessions < reserve) :
    0 < withoutReserve limit reserve sessions ↔ reserve * sessions ≠ limit := by
  unfold withoutReserve
  rw [if_neg h]
  have hle : reserve * sessions ≤ limit := (Nat.le_div_iff_mul_le hpos).mp (Nat.not_lt.mp h)
  omega

theorem validateBudget_ok (h : validateBudget limits = .ok ()) :
    ¬ limits.maxPendingGlobal / limits.maxSessionsGlobal < (pendingControlReserve limits).1 ∧
      ¬ limits.maxPendingItemsGlobal / limits.maxSessionsGlobal <
        (pendingControlReserve limits).2 := by
  unfold validateBudget at h
  dsimp only at h
  split_ifs at h with hcost hitems
  exact ⟨hcost, hitems⟩

/-- A fresh manager grants what is within the limits. -/
theorem changePendingBudget_fresh (m : Manager) (hcost : m.pendingGlobalCost = 0)
    (hitems : m.pendingGlobalItems = 0) (hbytes : 0 < (globalPendingLimits m.limits cls).1)
    (hroom : 0 < (globalPendingLimits m.limits cls).2) :
    ∃ m', changePendingBudget m 1 1 cls = .ok (m', true) := by
  unfold changePendingBudget
  dsimp only
  rw [hcost, hitems, if_neg (by omega), if_neg (by omega)]
  exact ⟨_, rfl⟩

/-- **An accepted configuration has a budget for data** exactly if the reserves do not add up to
the global budget. -/
theorem accepted_carries_data_iff (hpos : 0 < limits.maxSessionsGlobal)
    (hvalid : validateBudget limits = .ok ()) (hcls : cls ≠ .control) :
    CarriesDataGlobally limits hpos cls ↔ ¬ limits.ReservesAll := by
  obtain ⟨hcost, hitems⟩ := validateBudget_ok hvalid
  have hbytes := withoutReserve_pos hpos hcost
  have hroom := withoutReserve_pos hpos hitems
  have hlimit : globalPendingLimits limits cls =
      (withoutReserve limits.maxPendingGlobal (pendingControlReserve limits).1
          limits.maxSessionsGlobal,
        withoutReserve limits.maxPendingItemsGlobal (pendingControlReserve limits).2
          limits.maxSessionsGlobal) := if_pos hcls
  unfold Limits.ReservesAll
  constructor
  · intro h
    have h₁ := h.bytes
    have h₂ := h.items
    rw [hlimit] at h₁ h₂
    rintro (heq | heq)
    · exact hbytes.mp h₁ heq
    · exact hroom.mp h₂ heq
  · intro h
    have h₁ : 0 < (globalPendingLimits limits cls).1 := by
      rw [hlimit]
      exact hbytes.mpr fun heq => h (.inl heq)
    have h₂ : 0 < (globalPendingLimits limits cls).2 := by
      rw [hlimit]
      exact hroom.mpr fun heq => h (.inr heq)
    exact ⟨h₁, h₂, changePendingBudget_fresh _ rfl rfl h₁ h₂⟩

theorem accepted_carries_data_default :
    CarriesDataGlobally defaultLimits (by decide) .uplink ↔ ¬ defaultLimits.ReservesAll :=
  accepted_carries_data_iff (by decide) (by decide +kernel) (by decide)

/-! ### A configuration at the boundary -/

/-- One session of one stream, whose control reserve is the whole budget. -/
def exactReserve : Config.Limits :=
  { Config.defaults with
    maxStreamsPerSession := 1
    maxSessionsGlobal := 1
    maxPendingPerSession := 5092
    maxPendingGlobal := 5092 }

theorem exactReserve_valid : exactReserve.validate = .ok () := by decide +kernel

theorem exactReserve_budgetValid :
    validateBudget (exactReserve.global exactReserve_valid) = .ok () := by decide +kernel

/-- Start-up accepts it, and no DATA is ever admitted. -/
theorem exactReserve_carries_no_data : ∃ c : Config, ∃ hpos,
    ¬ CarriesDataGlobally (c.limits.global c.valid) hpos .uplink := by
  let c : Config := {
    limits := exactReserve
    bootstrapLifetime := 120 * 10 ^ 9
    profiles := [{ name := "alpha", capability := zeroDigest }]
    valid := exactReserve_valid
    profilesValid := by decide +kernel
    budgetValid := exactReserve_budgetValid }
  refine ⟨c, by decide +kernel, fun h => ?_⟩
  have hnone : (globalPendingLimits (exactReserve.global exactReserve_valid) .uplink).1 = 0 := by
    decide +kernel
  have hbytes := h.bytes
  rw [hnone] at hbytes
  exact Nat.lt_irrefl 0 hbytes

end TproxyServer
