import AutoHarness.Plane.PlannerSafety
import AutoHarness.Plane.CancelDurable
import AutoHarness.Plane.RecoveryMirror
import AutoHarness.Protocol.Locks
import AutoHarness.Protocol.Fencing
import AutoHarness.Protocol.Cancelled
import AutoHarness.Protocol.Replays
import AutoHarness.Protocol.LocalReservations
import AutoHarness.Protocol.HostLossCoverage
import AutoHarness.Protocol.SessionKeys
import AutoHarness.Daemon.DeferredHook
import AutoHarness.Listing.QueueOrder
import AutoHarness.Listing.Termination
import AutoHarness.Daemon.Redaction
import AutoHarness.Schedule.CronDays
import AutoHarness.Logs.ReadBack
import AutoHarness.Logs.Attempts
import AutoHarness.Recovery.Inactivity
import AutoHarness.Daemon.WorkspacePaths
import AutoHarness.Daemon.SlotProgress
import AutoHarness.Daemon.Capacity
import AutoHarness.Placement.Pins
import AutoHarness.Placement.Leases
import AutoHarness.Daemon.StatusRetry
import AutoHarness.Shared.SessionResult
import AutoHarness.Daemon.ResumeRefCapture
import AutoHarness.Daemon.MainCheckout
import AutoHarness.Store.ArgvStorage
import AutoHarness.Store.CreateConflicts
import AutoHarness.Store.MemoryLimiter
import AutoHarness.Plane.SlackOutbox
import AutoHarness.Protocol.Acknowledged
