import HotReload.World.Units
import HotReload.World.Objects
import HotReload.Text.Quoted
import HotReload.Call
import HotReload.Reload.Event
import HotReload.Reload.Journal
import HotReload.Reload.Stats
import HotReload.Reload.Phase
import HotReload.Reload.Config
import HotReload.Reload.Ownership
import HotReload.Reload.Snapshot
import HotReload.Reload.References
import HotReload.Reload.Session
import HotReload.Reload.Batch
import HotReload.Reload.Repair
import HotReload.Reload.Wrapping
import HotReload.Reload.Report
import HotReload.Reload.Reloader
import HotReload.Reload.ConfigReader
import HotReload.Scenario.Stage
import HotReload.Scenario.Performance
import HotReload.Scenario.TwoUnits
import HotReload.Scenario.Ledgers
import HotReload.Proofs.World.Form
import HotReload.Proofs.World.Soundness
import HotReload.Proofs.World.Operations
import HotReload.Proofs.World.Reachability
import HotReload.Proofs.Repair.Passes
import HotReload.Proofs.Repair.Ownership
import HotReload.Proofs.Repair.Opening
import HotReload.Proofs.Repair.Slots
import HotReload.Proofs.Repair.Bindings
import HotReload.Proofs.Repair.Propagation
import HotReload.Proofs.Repair.Stillness
import HotReload.Proofs.Reload.ExportSlots
import HotReload.Proofs.Reload.Attempts
import HotReload.Proofs.Reload.Course
import HotReload.Proofs.Reload.Pinned
import HotReload.Proofs.Reload.Unchanged
import HotReload.Proofs.Reload.Recompilers
import HotReload.Proofs.Reload.QualifiedAccess
import HotReload.Proofs.Repair.Moves
import HotReload.Proofs.Repair.Notes
import HotReload.Proofs.Repair.Fading
import HotReload.Proofs.Reload.Reported
import HotReload.Proofs.Reload.StaleReferences
import HotReload.Proofs.Reload.Rounds
import HotReload.Proofs.Repair.BackLists
import HotReload.Proofs.Repair.Lineage
import HotReload.Proofs.Reload.AncestorLists
import HotReload.Proofs.World.Hierarchy
import HotReload.Proofs.Reload.Acyclicity
import HotReload.Proofs.Reload.Calls
import HotReload.Proofs.Reload.Guard
import HotReload.Proofs.Reload.Requirements
import HotReload.Proofs.Reload.PropagationOrder
import HotReload.Proofs.Reload.ObjectTypes
import HotReload.Proofs.Repair.Relinking
import HotReload.Proofs.Repair.Twins
import HotReload.Proofs.Reload.Wrapping
import HotReload.Proofs.Reload.Redirection
import HotReload.Proofs.Reload.Confinement
import HotReload.Proofs.Reload.History
import HotReload.Proofs.Reload.JournalSettings
import HotReload.Proofs.Reload.Storage
import HotReload.Proofs.Reload.Evaluation
import HotReload.Proofs.Reload.Lifetimes
import HotReload.Proofs.Repair.Leftovers
import HotReload.Proofs.Reload.Idempotence
import HotReload.Proofs.Reload.Retyping
import HotReload.Proofs.Reload.WrapSites
import HotReload.Proofs.Reload.Layers
import HotReload.Proofs.Reload.Overlay
import HotReload.Proofs.Reload.FixedTable
import HotReload.Proofs.Reload.Erasure
import HotReload.Proofs.World.Heaps
import HotReload.Proofs.World.Merging
import HotReload.Proofs.World.Preorder
import HotReload.Proofs.World.MemberResolution
import HotReload.Proofs.World.Subtyping
import HotReload.Proofs.Reload.Protocol
import HotReload.Proofs.Reload.Counts
import HotReload.Proofs.Reload.Removals
import HotReload.Proofs.Reload.Records
import HotReload.Proofs.Reload.Retention
import HotReload.Proofs.World.Paths
import HotReload.Proofs.Reload.Holding
import HotReload.Proofs.Reload.MemberCalls
