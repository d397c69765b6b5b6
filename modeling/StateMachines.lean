import StateMachines.Derive.Samples
import StateMachines.Descriptor.Build
import StateMachines.Descriptor.Text
import StateMachines.Mask.Edit
import StateMachines.Scenario.Session
import StateMachines.Source.Enums
import StateMachines.Timers.Clocked
import StateMachines.Proofs.Store
import StateMachines.Proofs.Store.Generation
import StateMachines.Proofs.Engine
import StateMachines.Proofs.Execution.Transition
import StateMachines.Proofs.Execution.Effect
import StateMachines.Proofs.Execution.Run
import StateMachines.Proofs.Execution.Soundness
import StateMachines.Proofs.Termination.Forest
import StateMachines.Proofs.Termination.Endings
import StateMachines.Proofs.Termination.Links
import StateMachines.Proofs.Execution.Session
import StateMachines.Proofs.Termination.Teardown
import StateMachines.Proofs.Hooks
import StateMachines.Proofs.StateWalk
import StateMachines.Proofs.Termination.Order
import StateMachines.Proofs.Termination.Lineage
import StateMachines.Proofs.Faults
import StateMachines.Proofs.Termination.Course
import StateMachines.Proofs.Termination.Once
import StateMachines.Proofs.Timers.Order
import StateMachines.Proofs.Timers.Expiry
import StateMachines.Proofs.Timers.Firing
import StateMachines.Proofs.Execution.Outcome
import StateMachines.Proofs.Timers.Label
import StateMachines.Proofs.Timers.Timetable
import StateMachines.Proofs.Store.History
import StateMachines.Proofs.Refusals
import StateMachines.Proofs.Loop.Service
import StateMachines.Proofs.Loop.Delivery
import StateMachines.Proofs.Descriptor
import StateMachines.Proofs.Loop.Shutdown
import StateMachines.Proofs.Derive.Numbering
import StateMachines.Proofs.Derive.Search
import StateMachines.Proofs.Execution.Passive
import StateMachines.Proofs.Derive.Unreachable
import StateMachines.Proofs.Execution.Likeness
import StateMachines.Proofs.Execution.Series
import StateMachines.Proofs.Loop.Drain
import StateMachines.Proofs.Diagnostics.Plain
import StateMachines.Proofs.Diagnostics.Runs
import StateMachines.Proofs.Independence.Scope
import StateMachines.Proofs.Independence.Commute
import StateMachines.Proofs.Log.Chronicle
import StateMachines.Proofs.Log.Biography
import StateMachines.Proofs.Log.Faithful
import StateMachines.Proofs.Log.Journal
import StateMachines.Proofs.Derive.Verdict
import StateMachines.Proofs.Execution.Conclusion
import StateMachines.Proofs.Termination.Reentry
import StateMachines.Proofs.Termination.Removal
import StateMachines.Proofs.Source.Lexeme
import StateMachines.Proofs.Source.Comments
import StateMachines.Proofs.Source.Layout
import StateMachines.Proofs.Source.Reads
import StateMachines.Proofs.Source.Rendering
import StateMachines.Proofs.Source.Parts
import StateMachines.Proofs.Source.Attributes
import StateMachines.Proofs.Source.Items
import StateMachines.Proofs.Source.Roundtrip
import StateMachines.Proofs.Source.Spelling
import StateMachines.Proofs.Mask.Sets
import StateMachines.Proofs.Log.DisplayName
import StateMachines.Proofs.StateChange
