import TproxyServer.Frames

/-! # Configured limits and the partitions of the pending budget

The limits a session reads (`config.Limits` after `Manager.Create` has filled in the profile's
own) and the arithmetic that splits a pending budget between uplink DATA, downlink DATA and
control frames.  `Config.validate` only accepts positive limits; the one positivity the
session code itself rests on (`closedOrder[closedStart]`) is a field. -/

namespace TproxyServer

def queueItemCost : ℕ := 256
def controlReserveExtraItems : ℕ := 16
def controlReserveItemsPerStream : ℕ := 3
/-- `math.MaxInt`. -/
def maxInt : ℕ := 2 ^ 63 - 1

inductive PendingClass where
  | uplink
  | downlink
  | control
deriving DecidableEq, Repr

structure Limits where
  maxBodyBytes : ℕ
  maxFramePayload : ℕ
  carrierBatchBytes : ℕ
  maxStreamsPerSession : ℕ
  maxClosedStreamIDs : ℕ
  maxPendingPerSession : ℕ
  maxPendingItemsPerSession : ℕ
  maxPendingGlobal : ℕ
  maxPendingItemsGlobal : ℕ
  maxSessionsGlobal : ℕ
  maxClosedStreamIDs_pos : 0 < maxClosedStreamIDs

/-- The limits of `config.Defaults`. -/
def defaultLimits : Limits where
  maxBodyBytes := 2 * 1024 * 1024
  maxFramePayload := 1024 * 1024
  carrierBatchBytes := 2 * 1024 * 1024
  maxStreamsPerSession := 128
  maxClosedStreamIDs := 4096
  maxPendingPerSession := 32 * 1024 * 1024
  maxPendingItemsPerSession := 16 * 1024
  maxPendingGlobal := 512 * 1024 * 1024
  maxPendingItemsGlobal := 256 * 1024
  maxSessionsGlobal := 128
  maxClosedStreamIDs_pos := by decide

/-- `pendingControlReserve`: cost and items set aside for WINDOW, CLOSE and session control. -/
def pendingControlReserve (limits : Limits) : ℕ × ℕ :=
  if (maxInt - controlReserveExtraItems) / controlReserveItemsPerStream
      < limits.maxStreamsPerSession then
    (limits.maxPendingPerSession, limits.maxPendingItemsPerSession)
  else
    let items := controlReserveExtraItems +
      limits.maxStreamsPerSession * controlReserveItemsPerStream
    let costPerItem := queueItemCost + headerSize + 4
    if maxInt / costPerItem < items then
      (limits.maxPendingPerSession, limits.maxPendingItemsPerSession)
    else (items * costPerItem, items)

/-- `pendingUplinkReserve`: cost and items of one largest uplink batch. -/
def pendingUplinkReserve (limits : Limits) : ℕ × ℕ :=
  let items := min (limits.maxBodyBytes / headerSize) maxBatchFrames
  if (maxInt - limits.maxBodyBytes) / queueItemCost < items then
    (limits.maxPendingPerSession, limits.maxPendingItemsPerSession)
  else (limits.maxBodyBytes + items * queueItemCost, items)

/-- `subtractPendingReserve`: natural subtraction is the code's cut at zero. -/
def subtractPendingReserve (total reserve : ℕ × ℕ) : ℕ × ℕ :=
  (total.1 - reserve.1, total.2 - reserve.2)

def uplinkPendingLimits (limits : Limits) : ℕ × ℕ :=
  subtractPendingReserve (limits.maxPendingPerSession, limits.maxPendingItemsPerSession)
    (pendingControlReserve limits)

def downlinkPendingLimits (limits : Limits) : ℕ × ℕ :=
  subtractPendingReserve (uplinkPendingLimits limits) (pendingUplinkReserve limits)

/-- The cost and item limits `reservePendingLocked` checks for a class. -/
def pendingLimits (limits : Limits) : PendingClass → ℕ × ℕ
  | .uplink => uplinkPendingLimits limits
  | .downlink => downlinkPendingLimits limits
  | .control => (limits.maxPendingPerSession, limits.maxPendingItemsPerSession)

end TproxyServer
