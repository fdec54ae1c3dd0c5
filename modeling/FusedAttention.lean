import FusedAttention.Main
import FusedAttention.Proofs.Steps
import FusedAttention.Proofs.Buffers
import FusedAttention.Proofs.TileEntries
import FusedAttention.Proofs.Accumulation
import FusedAttention.Proofs.Stages
import FusedAttention.Proofs.BiasEntries
import FusedAttention.Proofs.Pairs
import FusedAttention.Proofs.KeyTiles
import FusedAttention.Proofs.RowSums
import FusedAttention.Proofs.Units
import FusedAttention.Proofs.Workspaces
import FusedAttention.Proofs.Layouts
import FusedAttention.Proofs.Acceptance
import FusedAttention.Proofs.Grouping
import FusedAttention.Proofs.Launches
import FusedAttention.Proofs.Interleavings
import FusedAttention.Proofs.Footprints
import FusedAttention.Proofs.ExactSums
import FusedAttention.Proofs.Formulas
import FusedAttention.Proofs.Schedules
import FusedAttention.Proofs.Ownership
import FusedAttention.Proofs.FullAttention
import FusedAttention.Proofs.Dependence
import FusedAttention.Proofs.Isolation
import FusedAttention.Proofs.LogicalInputs
import FusedAttention.Proofs.ExactGradients
import FusedAttention.Proofs.BiasSums
import FusedAttention.Proofs.QueryVisits
import FusedAttention.Proofs.QueryGradients
import FusedAttention.Proofs.Tensors
import FusedAttention.Proofs.References
import FusedAttention.Proofs.KeyGradients
import FusedAttention.Proofs.Exactness
import FusedAttention.Proofs.Partitions
import FusedAttention.Proofs.Softmax
import FusedAttention.Proofs.Attention
import FusedAttention.Proofs.Directions
import FusedAttention.Proofs.Derivatives
import FusedAttention.Proofs.Contractions
import FusedAttention.Proofs.Padding
import FusedAttention.Proofs.DenseBackward
import FusedAttention.Proofs.Cancellation
import FusedAttention.Proofs.Words
import FusedAttention.Proofs.Addresses
import FusedAttention.Proofs.SlotRegions
import FusedAttention.Proofs.VisitSeries
import FusedAttention.Proofs.Walks
import FusedAttention.Proofs.ConflictClasses
import FusedAttention.Proofs.Products
import FusedAttention.Proofs.LaneSums
import FusedAttention.Proofs.PaddedTensors
import FusedAttention.Proofs.RandomProblems
import FusedAttention.Proofs.InPlace
import FusedAttention.Proofs.StaleScratch
import FusedAttention.Proofs.Floats
import FusedAttention.Proofs.Differences
import FusedAttention.Proofs.PhaseOrder
import FusedAttention.Proofs.ScratchUses
import FusedAttention.Proofs.Refusals
import FusedAttention.Proofs.UnitPhases
