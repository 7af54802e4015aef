import ManagedStack.Failure
import ManagedStack.Word
import ManagedStack.Signature
import ManagedStack.Register
import ManagedStack.CallingConvention
import ManagedStack.Layout
import ManagedStack.Method
import ManagedStack.Code.OopMap
import ManagedStack.Code.Blob
import ManagedStack.Code.Cache
import ManagedStack.Code.DeoptRecords
import ManagedStack.Event
import ManagedStack.Stack
import ManagedStack.Computation
import ManagedStack.Frame.Error
import ManagedStack.Thread
import ManagedStack.Diagnostics
import ManagedStack.Frame.RegisterMap
import ManagedStack.CallWrapper
import ManagedStack.Frame.Basic
import ManagedStack.Machine
import ManagedStack.Frame.Interpreted
import ManagedStack.Frame.Monitors
import ManagedStack.Frame.ExpressionStack
import ManagedStack.Frame.Sender
import ManagedStack.Frame.Walk
import ManagedStack.Frame.Validation
import ManagedStack.Frame.References
import ManagedStack.Deoptimization
import ManagedStack.RootScan
import ManagedStack.ThreadGroup
import ManagedStack.Protocol.Message
import ManagedStack.Protocol.Error
import ManagedStack.Activation
import ManagedStack.Engine
import ManagedStack.Manager.Basic
import ManagedStack.Manager.Layout
import ManagedStack.Manager.Service
import ManagedStack.Manager.Drive
import ManagedStack.Engine.Script
import ManagedStack.Settings.Value
import ManagedStack.Settings.Scalar
import ManagedStack.Settings.Document
import ManagedStack.Configuration
import ManagedStack.Text.CodePoints
import ManagedStack.Text.DefaultIgnorable
import ManagedStack.Text.GraphemeExtend
import ManagedStack.Text.Printable
import ManagedStack.Text.Quoted
import ManagedStack.Frame.Description
import ManagedStack.Report.Basic
import ManagedStack.Report.Code
import ManagedStack.Report.Frame
import ManagedStack.Report.Protocol
import ManagedStack.Workbench.Basic
import ManagedStack.Workbench.Memory
import ManagedStack.Workbench.Frames
import ManagedStack.Workbench.Managers
import ManagedStack.Workbench.Trial
import ManagedStack.Proofs.Payloads
import ManagedStack.Proofs.Walks
import ManagedStack.Proofs.Enumeration
import ManagedStack.Proofs.Ascending
import ManagedStack.Proofs.CodeSpace
import ManagedStack.Proofs.LeftEntries
import ManagedStack.Proofs.Neutrality
import ManagedStack.Proofs.OwnWords
import ManagedStack.Proofs.Redirecting
import ManagedStack.Proofs.SafeSenders
import ManagedStack.Proofs.Transparency
import ManagedStack.Proofs.Throwing
import ManagedStack.Proofs.Returning
import ManagedStack.Proofs.Acceptance
import ManagedStack.Proofs.Alike
import ManagedStack.Proofs.Opening
import ManagedStack.Proofs.Replacement
import ManagedStack.Proofs.Reaching
import ManagedStack.Proofs.Deferring
import ManagedStack.Proofs.Settling
import ManagedStack.Proofs.Agreeing
import ManagedStack.Proofs.Identity
import ManagedStack.Proofs.Requesting
import ManagedStack.Proofs.Repeating
import ManagedStack.Proofs.Stranding
import ManagedStack.Proofs.Expecting
import ManagedStack.Proofs.Starting
import ManagedStack.Proofs.Continuing
import ManagedStack.Proofs.Answering
import ManagedStack.Proofs.Scheduling
import ManagedStack.Proofs.PositionForms
import ManagedStack.Proofs.Capacity
import ManagedStack.Proofs.Contents
import ManagedStack.Proofs.Registering
import ManagedStack.Proofs.Conventions
import ManagedStack.Proofs.Passing
import ManagedStack.Proofs.Recording
import ManagedStack.Proofs.Descriptors
import ManagedStack.Proofs.ReferenceMaps
import ManagedStack.Proofs.Verifying
