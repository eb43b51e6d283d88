import HostBridge.Bridge.Decode
import HostBridge.Bridge.Encode
import HostBridge.Bridge.Export
import HostBridge.Bridge.Invoke
import HostBridge.Bridge.Roster
import HostBridge.Bridge.Wrapper
import HostBridge.Environment
import HostBridge.Exception
import HostBridge.Fault
import HostBridge.Host.Program
import HostBridge.Host.Routine
import HostBridge.Host.Type
import HostBridge.Host.Value
import HostBridge.Interpreter.Lifecycle
import HostBridge.Interpreter.Queue
import HostBridge.Manifest
import HostBridge.Manifest.File
import HostBridge.Name
import HostBridge.Number.Binary
import HostBridge.Number.Format
import HostBridge.Number.Shortest
import HostBridge.Object.Attribute
import HostBridge.Object.Basic
import HostBridge.Object.Call
import HostBridge.Object.Container
import HostBridge.Object.Dict
import HostBridge.Object.Equality
import HostBridge.Object.Hash
import HostBridge.Object.Heap
import HostBridge.Object.Inspect
import HostBridge.Object.Key
import HostBridge.Object.Module
import HostBridge.Object.Ref
import HostBridge.Object.Text
import HostBridge.Proofs.Building.Failure
import HostBridge.Proofs.Calling.Refusal
import HostBridge.Proofs.Calling.Rejection
import HostBridge.Proofs.Calling.Run
import HostBridge.Proofs.Calling.Signature
import HostBridge.Proofs.Codec.Agreement
import HostBridge.Proofs.Codec.AllOrNothing
import HostBridge.Proofs.Codec.Decoding
import HostBridge.Proofs.Codec.Denotation
import HostBridge.Proofs.Codec.Destination
import HostBridge.Proofs.Codec.Encoding
import HostBridge.Proofs.Codec.Keys
import HostBridge.Proofs.Codec.Locating
import HostBridge.Proofs.Codec.Reading
import HostBridge.Proofs.Codec.RoundTrip
import HostBridge.Proofs.Dict.History
import HostBridge.Proofs.Dict.Literal
import HostBridge.Proofs.Dict.Projection
import HostBridge.Proofs.Dict.Reference
import HostBridge.Proofs.Equality.Session
import HostBridge.Proofs.Interpreter.Batch
import HostBridge.Proofs.Publishing.Boxing
import HostBridge.Proofs.Exporting.Call
import HostBridge.Proofs.Exporting.History
import HostBridge.Proofs.Exporting.Table
import HostBridge.Proofs.Interpreter.Conservation
import HostBridge.Proofs.Interpreter.Custody
import HostBridge.Proofs.Number.Widening
import HostBridge.Proofs.Operation
import HostBridge.Proofs.Ownership.Adoption
import HostBridge.Proofs.Ownership.Call
import HostBridge.Proofs.Ownership.Container
import HostBridge.Proofs.Ownership.Contract
import HostBridge.Proofs.Ownership.Dispatch
import HostBridge.Proofs.Ownership.Encode
import HostBridge.Proofs.Ownership.Export
import HostBridge.Proofs.Ownership.Host
import HostBridge.Proofs.Ownership.Invoke
import HostBridge.Proofs.Ownership.Lending
import HostBridge.Proofs.Ownership.Lifecycle
import HostBridge.Proofs.Ownership.Path
import HostBridge.Proofs.Ownership.Plain
import HostBridge.Proofs.Ownership.Preservation
import HostBridge.Proofs.Ownership.Queue
import HostBridge.Proofs.Ownership.Release
import HostBridge.Proofs.Ownership.Sound
import HostBridge.Proofs.Ownership.Step
import HostBridge.Proofs.Ownership.Tally
import HostBridge.Proofs.Ownership.Types
import HostBridge.Proofs.Ownership.Wrapper
import HostBridge.Proofs.Publishing.Closure
import HostBridge.Proofs.Publishing.Edit
import HostBridge.Proofs.Publishing.Graph
import HostBridge.Proofs.Publishing.Matching
import HostBridge.Proofs.Publishing.Publication
import HostBridge.Proofs.Publishing.Recursion
import HostBridge.Proofs.Publishing.Registration
import HostBridge.Proofs.Publishing.Remnant
import HostBridge.Proofs.Roster.Attendance
import HostBridge.Proofs.Roster.Chain
import HostBridge.Proofs.Roster.Clearing
import HostBridge.Proofs.Roster.History
import HostBridge.Proofs.Roster.Membership
import HostBridge.Proofs.Roster.Tenure
import HostBridge.Proofs.Roster.Vacating
import HostBridge.Proofs.Session.Reachable
import HostBridge.Proofs.Session.Request
import HostBridge.Proofs.Sharing.Chain
import HostBridge.Proofs.Sharing.Method
import HostBridge.Proofs.Sharing.Sublocation
import HostBridge.Proofs.Sharing.Values
import HostBridge.Proofs.Sharing.Write
import HostBridge.Proofs.Value.Likeness
import HostBridge.Proofs.Value.Order
import HostBridge.Proofs.Value.Place
import HostBridge.Proofs.Value.Typing
import HostBridge.Proofs.Wiring.Access
import HostBridge.Proofs.Wiring.Calls
import HostBridge.Proofs.Wiring.Exceptions
import HostBridge.Proofs.Wiring.Table
import HostBridge.Proofs.Wiring.Wired
import HostBridge.Sample.Function
import HostBridge.Sample.Maker
import HostBridge.Sample.Native
import HostBridge.Sample.Program
import HostBridge.Sample.Struct
import HostBridge.Sample.Value
import HostBridge.Text.Blank
import HostBridge.Text.CodeRange
import HostBridge.Text.Combining
import HostBridge.Text.Escape
import HostBridge.Text.Graphic
import HostBridge.Text.LetterCase
import HostBridge.World
import HostBridge.Proofs.Calling.Commutes
import HostBridge.Proofs.Calling.Dispatch
import HostBridge.Proofs.Calling.Isolation
import HostBridge.Proofs.Interpreter.Binding
import HostBridge.Proofs.Interpreter.Ending
import HostBridge.Proofs.Ownership.Deallocation
import HostBridge.Proofs.Ownership.Ledger
import HostBridge.Proofs.Session.Accounting
import HostBridge.Proofs.Codec.Shape
import HostBridge.Proofs.Codec.Payload
import HostBridge.Proofs.Codec.Naming
import HostBridge.Proofs.Publishing.Acceptance
import HostBridge.Proofs.Wiring.Shadowing
import HostBridge.Proofs.Dict.Numeric
import HostBridge.Proofs.Copying.Independence
import HostBridge.Proofs.Manifest.Applying
import HostBridge.Proofs.Name.Qualified
import HostBridge.Proofs.Exporting.Numbering
