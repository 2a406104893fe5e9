import QrEdgeGateway.Lib.Transition
import QrEdgeGateway.Lib.Progress
import QrEdgeGateway.Lib.Refinement
import QrEdgeGateway.Lib.Mealy
import QrEdgeGateway.Lib.Table
import QrEdgeGateway.Lib.Stuffing
import QrEdgeGateway.Lib.Delimited
import QrEdgeGateway.Core
import QrEdgeGateway.JobStore
import QrEdgeGateway.Dispatcher
import QrEdgeGateway.Monitor
import QrEdgeGateway.Cobs
import QrEdgeGateway.Device
import QrEdgeGateway.FrameReader
import QrEdgeGateway.JobRunner
import QrEdgeGateway.Timing
import QrEdgeGateway.Service
import QrEdgeGateway.Process
import QrEdgeGateway.Requests
import QrEdgeGateway.Gateway
import QrEdgeGateway.Messages
import QrEdgeGateway.Schedule
import QrEdgeGateway.Edge
import QrEdgeGateway.Deployment
import QrEdgeGateway.Verif.SerialCore
import QrEdgeGateway.Verif.MonitorRefinement
import QrEdgeGateway.Verif.Wakeup
import QrEdgeGateway.Verif.Latency
import QrEdgeGateway.Verif.CoreHistory
import QrEdgeGateway.Verif.Shutdown
import QrEdgeGateway.Verif.Bookkeeping
import QrEdgeGateway.Verif.Acceptance
import QrEdgeGateway.Verif.Answers
import QrEdgeGateway.Verif.Orphan
import QrEdgeGateway.Verif.StopEffect
import QrEdgeGateway.Verif.Accounting
import QrEdgeGateway.Verif.Permanence
import QrEdgeGateway.Verif.StoreShape
import QrEdgeGateway.Verif.CobsLaws
import QrEdgeGateway.Verif.EncoderCapacity
import QrEdgeGateway.Verif.JobOutcome
import QrEdgeGateway.Verif.Reading
import QrEdgeGateway.Verif.Delivery
import QrEdgeGateway.Verif.PollOutcome
import QrEdgeGateway.Verif.SmoothRuns
import QrEdgeGateway.Verif.ReadSplit
import QrEdgeGateway.Verif.WholeFrames
import QrEdgeGateway.Verif.DeviceStream
import QrEdgeGateway.Verif.FrameFunction
import QrEdgeGateway.Verif.ReadBudget
import QrEdgeGateway.Verif.TimeoutPassed
import QrEdgeGateway.Verif.Promptness
import QrEdgeGateway.Verif.StopLatency
import QrEdgeGateway.Verif.Rejection
import QrEdgeGateway.Verif.CancelledWait
import QrEdgeGateway.Verif.NextStart
import QrEdgeGateway.Verif.ThreadHandle
import QrEdgeGateway.Verif.ServiceProgress
import QrEdgeGateway.Verif.Contract
import QrEdgeGateway.Verif.Teardown
import QrEdgeGateway.Verif.Validators
import QrEdgeGateway.Verif.CloudAnswers
import QrEdgeGateway.Verif.HandlerRuns
import QrEdgeGateway.Verif.Conversations
import QrEdgeGateway.Verif.Attribution
import QrEdgeGateway.Verif.EndToEnd
import QrEdgeGateway.Verif.PollBudget
import QrEdgeGateway.Verif.DeviceToCloud
import QrEdgeGateway.Verif.FrameUse
