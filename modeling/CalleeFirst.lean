import CalleeFirst.Main
import CalleeFirst.Proofs.LeastSequence
import CalleeFirst.Proofs.Rearrangement
import CalleeFirst.Proofs.Renumbering
import CalleeFirst.Proofs.ComponentNumbers
import CalleeFirst.Proofs.ClosedPart
import CalleeFirst.Proofs.Ranks
import CalleeFirst.Proofs.NameOrder
import CalleeFirst.Proofs.Placement
import CalleeFirst.Proofs.PlainSort
import CalleeFirst.Proofs.CallEdges
import CalleeFirst.Proofs.Layout
import CalleeFirst.Proofs.Acceptance
import CalleeFirst.Proofs.Bytes
import CalleeFirst.Proofs.Edits
import CalleeFirst.Proofs.BlockReordering
import CalleeFirst.Proofs.Reordering
import CalleeFirst.Proofs.Lines
import CalleeFirst.Proofs.MemberRanges
import CalleeFirst.Proofs.References
import CalleeFirst.Proofs.Moved
import CalleeFirst.Proofs.TreePlaces
import CalleeFirst.Proofs.Readers
import CalleeFirst.Proofs.Faithful
import CalleeFirst.Proofs.FaithfulRules
import CalleeFirst.Proofs.SiblingCalls
import CalleeFirst.Proofs.NestedScopes
import CalleeFirst.Proofs.MemberPlaces
import CalleeFirst.Proofs.SecondReordering
import CalleeFirst.Proofs.Extraction
import CalleeFirst.Proofs.Explanation
import CalleeFirst.Proofs.Cancelling
import CalleeFirst.Proofs.HostRuns
import CalleeFirst.Proofs.Disks
import CalleeFirst.Proofs.Interleaving
import CalleeFirst.Proofs.DryRun
import CalleeFirst.Proofs.Iterations
import CalleeFirst.Proofs.PositionOffsets
import CalleeFirst.Proofs.PathOrder
import CalleeFirst.Proofs.Collecting
import CalleeFirst.Proofs.BlockPlaces
import CalleeFirst.Proofs.Shifting
import CalleeFirst.Proofs.Pushed
import CalleeFirst.Proofs.PushedRules
import CalleeFirst.Proofs.PushedItems
import CalleeFirst.Proofs.FirstLine
import CalleeFirst.Proofs.RunLine
import CalleeFirst.Proofs.ByteOrderMark
