import X360Port.Library.Memory
import X360Port.GuestEndian
import X360Port.Digest
import X360Port.Validation
import X360Port.Validation.WellFormed
import X360Port.GuestCall
import X360Port.Library.Checked
import X360Port.Library.EarlyExit
import X360Port.Library.Runs
import X360Port.RuntimeImports
import X360Port.RuntimeImports.Tables
import X360Port.RuntimeImports.Patches
import X360Port.RuntimeImports.PatchedImports
import X360Port.ExecutableInvalidation
import X360Port.Library.Machine
import X360Port.Library.Sha256
import X360Port.Digest.Blocks
import X360Port.Library.Readers
import X360Port.Digest.Manifest
import X360Port.ExecutableInvalidation.Interleaving
import X360Port.GuestExecution
import X360Port.GuestExecution.Thread
import X360Port.GuestExecution.Scopes
import X360Port.GuestExecution.Moves
import X360Port.GuestExecution.Budget
import X360Port.GuestExecution.Report
import X360Port.GuestExecution.Marks
import X360Port.GuestExecution.Counters
import X360Port.GuestExecution.CallFrame
import X360Port.GuestExecution.Invalidation
import X360Port.OverrideDispatch
import X360Port.OverrideDispatch.Redirects
import X360Port.Runtime
import X360Port.Runtime.Loading
import X360Port.Runtime.FailClosed
import X360Port.Runtime.ImageBytes
import X360Port.Runtime.ImageRange
import X360Port.Library.Spans
import X360Port.Library.Acceptance
import X360Port.Library.Changes
import X360Port.Library.WordArithmetic
import X360Port.DesktopInput
import X360Port.DesktopInput.Steps
import X360Port.DesktopInput.Travel
import X360Port.PadMerge
import X360Port.PadMerge.Packets
import X360Port.ByteSpans
import X360Port.PeImage
import X360Port.PeImage.Accepted
import X360Port.XexInspect
import X360Port.XexInspect.HeaderExtent
import X360Port.XexImports
import X360Port.XexInspect.Imports
import X360Port.XexInspect.Rewriting
import X360Port.XexInspect.Walk
import X360Port.XexInspect.Original
import X360Port.XexInspect.Descriptor
import X360Port.XexInspect.Safety
import X360Port.XexInspect.Normalized
import X360Port.XexHelpers
import X360Port.XexInspect.Inspect
import X360Port.Library.OrderedMap
import X360Port.XeniaMemory
import X360Port.GuestMemory
import X360Port.XeniaMemory.Paged
import X360Port.GuestMemory.Ownership
import X360Port.GuestMemory.MappedAccess
import X360Port.GuestVirtualMemory
import X360Port.GuestVirtualMemory.Backing
import X360Port.GuestVirtualMemory.PagedLaws
import X360Port.GuestVirtualMemory.SharedHeap
import X360Port.DesktopInput.Snapshot
import X360Port.DesktopCapture
import X360Port.SystemSession
import X360Port.SystemSession.Accepted
import X360Port.SystemWindow
import X360Port.SystemWindow.Steps
import X360Port.SystemWindow.Endings
import X360Port.SystemWindow.Delivery
import X360Port.DesktopInput.Motions
import X360Port.ImportClaims
import X360Port.ImportClaims.Applied
import X360Port.GuestVirtualMemory.Outcomes
import X360Port.GuestVirtualMemory.Zeroing
import X360Port.GuestVirtualMemory.Preparing
import X360Port.GuestVirtualMemory.FixedRequests
import X360Port.GuestVirtualMemory.HeapEffects
import X360Port.GuestVirtualMemory.PagedEffects
import X360Port.GuestVirtualMemory.Refusals
import X360Port.Library.WordMasks
import X360Port.ExecutableInvalidation.Notified
import X360Port.PeImage.Placed
import X360Port.DeviceDispatch
import X360Port.Library.Ranks
import X360Port.FrameIntervals
import X360Port.PadMerge.Threads
import X360Port.Library.Utf8
import X360Port.Library.Json
import X360Port.Library.Json.Tokens
import X360Port.Library.Json.Reader
import X360Port.Library.Json.Parser
import X360Port.Library.Json.Layout
import X360Port.XexDocument
import X360Port.XexDocument.Written
import X360Port.XexDocument.ReadBack
import X360Port.Library.Rebuilding
import X360Port.ExecutableInvalidation.Coherence
import X360Port.RuntimeImports.Dispatch
import X360Port.Runtime.ServedImports
import X360Port.Library.Flags
import X360Port.DesktopCapture.Window
import X360Port.XamInput
import X360Port.Runtime.Execution
import X360Port.Runtime.Authenticated
import X360Port.Library.Ledger
import X360Port.Library.Lease
import X360Port.XeniaMemory.Recorded
import X360Port.GuestThreadContext
import X360Port.GuestVirtualMemory.BlocksKept
import X360Port.XeniaInstanceLease
import X360Port.XeniaInstanceLease.Safety
import X360Port.XexInspect.Sealed
import X360Port.SystemSession.Overrides
import X360Port.SystemSession.Threads
import X360Port.SystemSession.Running
import X360Port.PeImage.Acceptance
import X360Port.XexInspect.Acceptance
import X360Port.Library.Replay
import X360Port.GuestVirtualMemory.Contents
import X360Port.GuestVirtualMemory.LastWritten
import X360Port.GuestVirtualMemory.PageMap
