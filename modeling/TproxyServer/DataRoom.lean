import TproxyServer.Backends
import TproxyServer.Configuration
import TproxyServer.Uplink

/-! # Which configurations can carry data

A session splits its pending budget in three: a reserve for control frames, one for a largest
uplink batch, and the rest for downlink DATA.  The split subtracts with a cut at zero, and
start-up relates only the first reserve, and only to the global budget.  Whether an accepted
profile can carry data therefore depends on two inequalities nobody checks; here they are
computed (`Config.HasRoom`) and shown to be exact (`Config.carriesData_iff`). -/

namespace TproxyServer

open Interaction Prog

/-! ### What a body can ask for -/

/-- A parsed batch fits into the bytes it was parsed from, and has at most `room` frames. -/
theorem parseLoop_size {maxPayload room : ℕ} {input : Bytes} {frames : List Frame}
    (h : parseLoop maxPayload room input = .ok frames) :
    frames.length ≤ room ∧
      (frames.map fun f => headerSize + f.payload.length).sum = input.length := by
  induction room generalizing input frames with
  | zero =>
      cases input with
      | nil => cases h; simp
      | cons => cases h
  | succ room ih =>
      cases input with
      | nil => cases h; simp
      | cons b rest =>
          unfold parseLoop at h
          dsimp only at h
          split_ifs at h with _ _ hfull
          split at h
          · cases h
          · next frames' hrest =>
              cases h
              obtain ⟨hcount, hsum⟩ := ih hrest
              refine ⟨by simpa using hcount, ?_⟩
              rw [List.length_drop] at hsum
              simp only [List.map_cons, List.sum_cons, hsum, List.length_drop, List.length_take]
              omega

theorem parseAll_size {limit : ℕ} {body : Bytes} {frames : List Frame}
    (h : parseAll body limit = .ok frames) :
    frames.length ≤ maxBatchFrames ∧
      frames.length * headerSize + (frames.map fun f => f.payload.length).sum = body.length := by
  have hsplit : (frames.map fun f => headerSize + f.payload.length).sum =
      frames.length * headerSize + (frames.map fun f => f.payload.length).sum := by
    rw [List.sum_map_add]
    simp
  rw [← hsplit]
  unfold parseAll at h
  dsimp only at h
  split at h
  · cases h
  · cases h
  · next hloop =>
      cases h
      exact parseLoop_size hloop

/-- `asked` is no more than a batch can ask for: an item for a frame, its payload and the cost
of an item. -/
structure Asks (frames : List Frame) (asked : ℕ × ℕ) : Prop where
  items : asked.2 ≤ frames.length
  cost : asked.1 ≤ (frames.map fun f => f.payload.length).sum + asked.2 * queueItemCost
  charged : asked.2 = 0 ↔ asked.1 = 0

theorem Asks.skip {frames : List Frame} {asked : ℕ × ℕ} (h : Asks frames asked) (f : Frame) :
    Asks (f :: frames) asked where
  items := h.items.trans (Nat.le_succ _)
  cost := by
    have := h.cost
    simp only [List.map_cons, List.sum_cons]
    omega
  charged := h.charged

theorem Asks.data {frames : List Frame} {asked : ℕ × ℕ} (h : Asks frames asked) (f : Frame) :
    Asks (f :: frames) (f.payload.length + queueItemCost + asked.1, 1 + asked.2) where
  items := by
    have := h.items
    simp only [List.length_cons]
    omega
  cost := by
    have := h.cost
    simp only [List.map_cons, List.sum_cons, Nat.add_mul]
    omega
  charged := by
    unfold queueItemCost
    omega

theorem reservationLoop_asks (live : Finset ℕ) (frames : List Frame) :
    Asks frames (reservationLoop live frames) := by
  induction frames generalizing live with
  | nil => exact ⟨le_rfl, Nat.zero_le _, Iff.rfl⟩
  | cons f rest ih =>
      unfold reservationLoop
      by_cases h0 : f.streamID = 0
      · rw [if_pos h0]
        exact (ih live).skip f
      · rw [if_neg h0]
        cases f.type with
        | data =>
            dsimp only
            split_ifs
            · exact (ih live).data f
            · exact (ih live).skip f
        | «open» => exact (ih _).skip f
        | close => exact (ih _).skip f
        | window => exact (ih live).skip f
        | ping => exact (ih live).skip f
        | pong => exact (ih live).skip f
        | hello => exact (ih live).skip f
        | welcome => exact (ih live).skip f
        | bye => exact (ih live).skip f
        | unknown => exact (ih live).skip f

/-- The largest reservation that a body of at most `maxBodyBytes` bytes can need. -/
theorem clientFrames_asks {s : Session} {body : Bytes} {frames : List Frame}
    (hbody : body.length ≤ s.limits.maxBodyBytes)
    (h : clientFrames s.limits body = some frames) :
    let asked := backendWriteReservationLocked s frames
    asked.2 ≤ min (s.limits.maxBodyBytes / headerSize) maxBatchFrames ∧
      asked.1 ≤ s.limits.maxBodyBytes +
        min (s.limits.maxBodyBytes / headerSize) maxBatchFrames * queueItemCost ∧
      (asked.2 = 0 ↔ asked.1 = 0) := by
  intro asked
  obtain ⟨hitems, hcost, hcharged⟩ : Asks frames asked := reservationLoop_asks _ frames
  obtain ⟨hcount, hsum⟩ : frames.length ≤ maxBatchFrames ∧
      frames.length * headerSize + (frames.map fun f => f.payload.length).sum = body.length := by
    unfold clientFrames at h
    split at h
    · cases h
    · next hparse =>
        split_ifs at h
        cases h
        exact parseAll_size hparse
  have hroom : asked.2 ≤ min (s.limits.maxBodyBytes / headerSize) maxBatchFrames := by
    apply le_min
    · rw [Nat.le_div_iff_mul_le (by decide)]
      have := Nat.mul_le_mul_right headerSize hitems
      omega
    · exact hitems.trans hcount
  refine ⟨hroom, ?_, hcharged⟩
  have := Nat.mul_le_mul_right queueItemCost hroom
  omega

/-! ### The condition -/

namespace Config

/-- Items set aside for control frames. -/
def controlItems (limits : TproxyServer.Limits) : ℕ :=
  controlReserveExtraItems + limits.maxStreamsPerSession * controlReserveItemsPerStream

/-- Items set aside for a largest uplink batch. -/
def batchItems (limits : TproxyServer.Limits) : ℕ :=
  min (limits.maxBodyBytes / headerSize) maxBatchFrames

/-- The two reserves and one DATA frame fit into the session's pending budget. -/
def HasRoom (limits : TproxyServer.Limits) : Prop :=
  controlItems limits + batchItems limits < limits.maxPendingItemsPerSession ∧
    controlItems limits * (queueItemCost + headerSize + 4) +
        (limits.maxBodyBytes + batchItems limits * queueItemCost) + (queueItemCost + headerSize) <
      limits.maxPendingPerSession

instance (limits : TproxyServer.Limits) : Decidable (HasRoom limits) := by
  unfold HasRoom
  exact inferInstance

end Config

/-- A fresh session reserves every valid batch, and lets a backend be read. -/
structure Session.CarriesData (s : Session) : Prop where
  uplink : ∀ body frames, body.length ≤ s.limits.maxBodyBytes →
    clientFrames s.limits body = some frames → validateBatchLocked s frames = true →
    let asked := backendWriteReservationLocked s frames
    asked.1 ≠ 0 ∨ asked.2 ≠ 0 →
    (reservePendingLocked s asked.1 asked.2 .uplink).run [true] =
      ([], .ok (s.charge asked.1 asked.2, true))
  downlink : ∀ limit, 0 < limit → 0 < dataFrameAllowanceLocked s limit

/-! ### The partitions of an `int` budget -/

section
variable {limits : Limits} (hcost : limits.maxPendingPerSession ≤ maxInt)

include hcost in
/-- Either the control reserve is what it says, or it does not fit an `int` and takes all. -/
theorem uplinkPendingLimits_cases :
    uplinkPendingLimits limits =
        (limits.maxPendingPerSession -
            Config.controlItems limits * (queueItemCost + headerSize + 4),
          limits.maxPendingItemsPerSession - Config.controlItems limits) ∨
      (uplinkPendingLimits limits = (0, 0) ∧
        limits.maxPendingPerSession <
          Config.controlItems limits * (queueItemCost + headerSize + 4)) := by
  unfold uplinkPendingLimits pendingControlReserve subtractPendingReserve Config.controlItems
  unfold controlReserveItemsPerStream controlReserveExtraItems queueItemCost headerSize
  dsimp only
  split_ifs with hstreams hwide
  · refine .inr ⟨by simp, ?_⟩
    have := Nat.lt_mul_of_div_lt hstreams (by decide)
    omega
  · refine .inr ⟨by simp, ?_⟩
    have := Nat.lt_mul_of_div_lt hwide (by decide)
    omega
  · exact .inl rfl

include hcost in
/-- Downlink DATA has room for a frame exactly when the budget has. -/
theorem downlinkPendingLimits_room :
    queueItemCost + headerSize < (downlinkPendingLimits limits).1 ∧
        0 < (downlinkPendingLimits limits).2 ↔ Config.HasRoom limits := by
  unfold downlinkPendingLimits pendingUplinkReserve subtractPendingReserve Config.HasRoom
  rw [← Config.batchItems]
  rcases uplinkPendingLimits_cases hcost with heq | ⟨heq, hsmall⟩
  · rw [heq]
    dsimp only
    split_ifs with hwide
    · have hlarge : maxInt - limits.maxBodyBytes < Config.batchItems limits * queueItemCost :=
        Nat.lt_mul_of_div_lt hwide (by decide)
      omega
    · omega
  · rw [heq]
    dsimp only
    omega

include hcost in
theorem uplinkPendingLimits_room (h : Config.HasRoom limits) :
    limits.maxBodyBytes + Config.batchItems limits * queueItemCost ≤
        (uplinkPendingLimits limits).1 ∧
      Config.batchItems limits ≤ (uplinkPendingLimits limits).2 := by
  obtain ⟨hi, hc⟩ := h
  rcases uplinkPendingLimits_cases hcost with heq | ⟨-, hsmall⟩
  · rw [heq]
    dsimp only
    omega
  · omega

end

/-- A session that has nothing pending carries data exactly when its budget has room. -/
theorem Session.carriesData_room {s : Session}
    (hcost : s.limits.maxPendingPerSession ≤ maxInt) (hpending : s.pendingCost = 0)
    (hpendingItems : s.pendingItems = 0) : s.CarriesData ↔ Config.HasRoom s.limits := by
  constructor
  · intro h
    rw [← downlinkPendingLimits_room hcost]
    have hone := h.downlink 1 Nat.one_pos
    unfold dataFrameAllowanceLocked at hone
    dsimp only at hone
    rw [hpending, hpendingItems] at hone
    split_ifs at hone with hi hc
    · omega
    · omega
    · omega
  · intro h
    obtain ⟨hcostRoom, hitemRoom⟩ := (downlinkPendingLimits_room hcost).mpr h
    refine ⟨?_, ?_⟩
    · intro body frames hbody hframes _ asked hasked
      obtain ⟨haskedItems, haskedCost, hcharged⟩ := clientFrames_asks hbody hframes
      obtain ⟨hupCost, hupItems⟩ := uplinkPendingLimits_room hcost h
      have hfits : ¬(asked.1 = 0 ∨ (pendingLimits s.limits .uplink).1 < asked.1 ∨
          (pendingLimits s.limits .uplink).2 < asked.2 ∨
          (pendingLimits s.limits .uplink).1 - asked.1 < s.pendingCost ∨
          (pendingLimits s.limits .uplink).2 - asked.2 < s.pendingItems) := by
        have hne : asked.1 ≠ 0 := by
          rcases hasked with hne | hne
          · exact hne
          · exact fun h0 => hne (hcharged.mpr h0)
        have h₁ : asked.1 ≤ (pendingLimits s.limits .uplink).1 := haskedCost.trans hupCost
        have h₂ : asked.2 ≤ (pendingLimits s.limits .uplink).2 := haskedItems.trans hupItems
        omega
      unfold reservePendingLocked
      rw [if_neg hfits]
      rfl
    · intro limit hlimit
      unfold dataFrameAllowanceLocked
      dsimp only
      rw [hpending, hpendingItems, if_neg (by omega), if_neg (by omega)]
      omega

theorem newSession_limits (limits : Limits) (carrier : CarrierMode) :
    (newSession limits carrier).limits = limits ∧
      (newSession limits carrier).pendingCost = 0 ∧
      (newSession limits carrier).pendingItems = 0 := by
  unfold newSession
  split_ifs <;> exact ⟨rfl, rfl, rfl⟩

namespace Config

/-- **Which accepted configurations can carry data**: exactly those whose profile leaves room
for both reserves and one DATA frame. -/
theorem carriesData_iff (c : Config) (p : Profile) :
    (newSession (c.sessionLimits p) p.carrierMode).CarriesData ↔ HasRoom (c.sessionLimits p) := by
  obtain ⟨hlimits, hcost, hitems⟩ := newSession_limits (c.sessionLimits p) p.carrierMode
  have hint : ∀ x : Int64, x.toNatClampNeg ≤ maxInt := fun x =>
    Nat.le_pred_of_lt x.toNatClampNeg_lt
  have h := Session.carriesData_room (s := newSession (c.sessionLimits p) p.carrierMode)
    (by rw [hlimits]; exact hint _) hcost hitems
  rwa [hlimits] at h

/-- The default limits with one profile whose sessions may hold 3 MiB. -/
def threeMebibytes : Config where
  limits := defaults
  bootstrapLifetime := 120 * 10 ^ 9
  profiles := [{
    name := "alpha"
    capability := zeroDigest
    limits := { maxPendingPerSession := 3 * 1024 * 1024 } }]
  valid := defaults_valid
  profilesValid := by decide +kernel
  budgetValid := defaults_budgetValid

/-- Start-up accepts it, and no backend of its sessions is ever read. -/
theorem threeMebibytes_carries_no_data :
    ∃ p ∈ threeMebibytes.profiles,
      ¬(newSession (threeMebibytes.sessionLimits p) p.carrierMode).CarriesData := by
  refine ⟨_, List.mem_singleton.mpr rfl, ?_⟩
  intro h
  exact absurd (h.downlink dataChunk (by decide)) (by decide +kernel)

end Config

end TproxyServer
