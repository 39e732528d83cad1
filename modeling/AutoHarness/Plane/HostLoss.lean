import AutoHarness.Plane.RecoveryCache

/-! The loss of a host in memory. `offlineHostAndRequeue` goes over its worktrees and main checkouts;
`reclaimReconnectDeadlines` over all sessions. -/

namespace AutoHarness.Plane
open Foundation Store

namespace ControlPlaneState

variable (st : ControlPlaneState)

/-- The statuses that the deadline sweep takes up; a cancelled session only with a main checkout or a slot. -/
def reclaimableStatus (session : SessionRow) : Bool :=
  session.status == .running ||
    (session.status == .cancelled && (session.mainCheckoutLease || session.workspaceSlotLease)) ||
    (session.status == .timedOut && session.workspaceSlotLease)

/-- The deadline has passed for a session that still claims something. -/
def reclaimable (now : Timestamp) (session : SessionRow) : Bool :=
  reclaimableStatus session && session.reconnectDeadlineAt.any (fun at_ => decide (at_ ≤ now)) &&
    ((given session.worktreeId.toOption).isSome || (given session.workspaceSlotId.toOption).isSome ||
      session.mainCheckoutLease)

end ControlPlaneState

end AutoHarness.Plane
