import TproxyServer.SectionAccounting

/-! # The process

`Manager` as far as the pending budget goes, and the sessions that share it.  A session runs
one section at a time under its own mutex, but the sections of different sessions interleave
wherever one of them calls the manager: `Slot.running` is a session in the middle of a
section, with what is left of it.  How `acquireStream` decides (stream limits and rates) is
left open, as is who calls which section when.  `Create` may use any limits and carrier.

`limitHits` and the other metrics are left out; nothing reads them back. -/

namespace TproxyServer

open Interaction Prog

/-- `Manager`: its configured limits and the global pending budget. -/
structure Manager where
  limits : Limits
  pendingGlobalCost : ℤ := 0
  pendingGlobalItems : ℤ := 0
  sessions_pos : 0 < limits.maxSessionsGlobal

/-- "negative global pending budget". -/
inductive ManagerPanic where
  | negativeBudget

/-- What `changePendingBudget` leaves of a limit once every session has its control reserve. -/
def withoutReserve (limit reserve sessions : ℕ) : ℕ :=
  if limit / sessions < reserve then 0 else limit - reserve * sessions

def globalPendingLimits (limits : Limits) (cls : PendingClass) : ℕ × ℕ :=
  if cls ≠ .control then
    let reserve := pendingControlReserve limits
    (withoutReserve limits.maxPendingGlobal reserve.1 limits.maxSessionsGlobal,
      withoutReserve limits.maxPendingItemsGlobal reserve.2 limits.maxSessionsGlobal)
  else (limits.maxPendingGlobal, limits.maxPendingItemsGlobal)

def changePendingBudget (m : Manager) (costDelta itemDelta : ℤ) (cls : PendingClass) :
    Except ManagerPanic (Manager × Bool) :=
  let limit := globalPendingLimits m.limits cls
  if (0 < costDelta ∨ 0 < itemDelta) ∧
      (limit.1 < costDelta ∨ limit.1 - costDelta < m.pendingGlobalCost ∨
        limit.2 < itemDelta ∨ limit.2 - itemDelta < m.pendingGlobalItems) then
    .ok (m, false)
  else if m.pendingGlobalCost + costDelta < 0 ∨ m.pendingGlobalItems + itemDelta < 0 then
    .error .negativeBudget
  else
    .ok ({ m with
      pendingGlobalCost := m.pendingGlobalCost + costDelta
      pendingGlobalItems := m.pendingGlobalItems + itemDelta }, true)

def Manager.pending (m : Manager) : ℤ × ℤ := (m.pendingGlobalCost, m.pendingGlobalItems)

inductive Slot where
  /-- Nobody holds the session's mutex. -/
  | idle (σ : Traced)
  /-- A section is under way: the history so far, the rest of the section, and the cost and
  items that the manager has granted the session by now. -/
  | running (trace : List Event) (rest : Act (Session × Reply)) (granted : ℤ × ℤ)

/-- What the manager has granted a session. -/
def Slot.charge : Slot → ℤ × ℤ
  | .idle σ => σ.session.pending
  | .running _ _ granted => granted

structure Process where
  manager : Manager
  sessions : Table ℕ Slot := .nil

namespace Process

def set (P : Process) (k : ℕ) (slot : Slot) : Process :=
  { P with sessions := P.sessions.put k slot }

/-- One thing happens in the process. -/
inductive Step (sha256 : Bytes → Bytes) : Process → Process → Prop
  | create {P : Process} {k : ℕ} (h : P.sessions.get k = none) (limits : Limits)
      (carrier : CarrierMode) :
      Step sha256 P (P.set k (.idle ⟨newSession limits carrier, []⟩))
  | begin {P : Process} {k : ℕ} {σ : Traced} (h : P.sessions.get k = some (.idle σ))
      (c : Section) (hc : c.Callable σ.session) :
      Step sha256 P (P.set k
        (.running σ.trace (c.exec sha256 σ.session) σ.session.pending))
  | note {P : Process} {k : ℕ} {t : List Event} {e : Event} {p : Act (Session × Reply)}
      {g : ℤ × ℤ} (h : P.sessions.get k = some (.running t (.note e p) g)) :
      Step sha256 P (P.set k (.running (t ++ [e]) p g))
  | budget {P : Process} {k : ℕ} {t : List Event} {cost items : ℤ} {cls : PendingClass}
      {next : Bool → Act (Session × Reply)} {g : ℤ × ℤ} {m : Manager} {granted : Bool}
      (h : P.sessions.get k = some (.running t (.ask (.budget cost items cls) next) g))
      (hm : changePendingBudget P.manager cost items cls = .ok (m, granted)) :
      Step sha256 P ({ P with manager := m }.set k
        (.running t (next granted) (if granted then g + (cost, items) else g)))
  | acquire {P : Process} {k : ℕ} {t : List Event} {next : Bool → Act (Session × Reply)}
      {g : ℤ × ℤ} (h : P.sessions.get k = some (.running t (.ask .acquireStream next) g))
      (granted : Bool) :
      Step sha256 P (P.set k (.running t (next granted) g))
  | finish {P : Process} {k : ℕ} {t : List Event} {s : Session} {r : Reply} {g : ℤ × ℤ}
      (h : P.sessions.get k = some (.running t (.done (s, r)) g)) :
      Step sha256 P (P.set k (.idle ⟨s, t⟩))

/-- The states of a process whose manager starts with these limits. -/
inductive Reachable (sha256 : Bytes → Bytes) (limits : Limits) : Process → Prop
  | start (hpos : 0 < limits.maxSessionsGlobal) :
      Reachable sha256 limits { manager := { limits, sessions_pos := hpos } }
  | step {P P' : Process} :
      Reachable sha256 limits P → Step sha256 P P' → Reachable sha256 limits P'

/-- Run the section under way in session `k` to its end, nothing else happening; `acquireStream`
answers as listed. -/
def drive (k : ℕ) : Process → List Event → Act (Session × Reply) → ℤ × ℤ → List Bool →
    Option Process
  | P, t, .done (s, _), _, _ => some (P.set k (.idle ⟨s, t⟩))
  | P, t, .note e p, g, answers => drive k P (t ++ [e]) p g answers
  | P, t, .ask .acquireStream next, g, answers =>
      drive k P t (next (answers.headD true)) g answers.tail
  | P, t, .ask (.budget cost items cls) next, g, answers =>
      match changePendingBudget P.manager cost items cls with
      | .error _ => none
      | .ok (m, granted) =>
          drive k { P with manager := m } t (next granted)
            (if granted then g + (cost, items) else g) answers
  | _, _, .panic _, _, _ => none

theorem set_set (P : Process) (k : ℕ) (slot slot' : Slot) :
    (P.set k slot).set k slot' = P.set k slot' := by
  simp only [set, Table.put_put_self]

theorem Reachable.drive {sha256 : Bytes → Bytes} {limits : Limits} {k : ℕ} {P P' : Process}
    {t : List Event} {p : Act (Session × Reply)} {g : ℤ × ℤ} {answers : List Bool}
    (h : Reachable sha256 limits (P.set k (.running t p g)))
    (hd : drive k P t p g answers = some P') : Reachable sha256 limits P' := by
  have hget : ∀ (P : Process) slot, (P.set k slot).sessions.get k = some slot :=
    fun P slot => Table.get_put_self P.sessions k slot
  induction p generalizing P t g answers with
  | done r =>
      obtain ⟨s, r⟩ := r
      cases hd
      rw [← set_set P k (.running t (.done (s, r)) g)]
      exact h.step (.finish (hget P _))
  | ask q next ih =>
      cases q with
      | acquireStream =>
          refine ih _ ?_ hd
          rw [← set_set P k (.running t (.ask .acquireStream next) g)]
          exact h.step (.acquire (hget P _) _)
      | budget cost items cls =>
          unfold Process.drive at hd
          split at hd
          · cases hd
          · next m granted hm =>
              refine ih granted ?_ hd
              rw [← set_set _ k (.running t (.ask (.budget cost items cls) next) g)]
              exact h.step (.budget (hget P _) hm)
  | note e p ih =>
      refine ih ?_ hd
      rw [← set_set P k (.running t (.note e p) g)]
      exact h.step (.note (hget P _))
  | panic w => cases hd

end Process

end TproxyServer
