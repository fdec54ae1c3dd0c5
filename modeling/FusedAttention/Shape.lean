import FusedAttention.Fault

/-! Sizes of an attention problem. -/
namespace FusedAttention

/-- Rounds `value` up to a multiple of `multiple`. -/
def alignUp (value multiple : Nat) : Nat :=
  (value + multiple - 1) / multiple * multiple

/-- Number of runs of `width` that cover `total`. -/
def chunksOf (total width : Nat) : Nat :=
  (total + width - 1) / width

/-- `alignUp` for a multiple that is not known to be positive. -/
def alignUp? (value multiple : Nat) : Except Fault Nat :=
  if multiple = 0 then .error .zeroDivisor else .ok (alignUp value multiple)

/-- Number of elements that dimensions span. -/
def extent (dims : List Nat) : Nat :=
  dims.foldr (· * ·) 1

/-- Elements in one vector line; heads of an aligned tensor start on whole lines. -/
def lineSize : Nat := 4

/-- Sizes of one problem. `batch` counts the members of all bias groups,
`groupSize` of which share one pair bias. -/
structure Shape where
  batch : Nat
  heads : Nat
  numQueries : Nat
  numKeys : Nat
  headDim : Nat
  headDimValue : Nat
  groupSize : Nat
  deriving DecidableEq, Repr, Inhabited

namespace Shape

/-- Number of (batch, head) pairs. -/
def units (s : Shape) : Nat :=
  s.batch * s.heads

/-- Batches counted by the pair bias they share. -/
def biasGroups (s : Shape) : Nat :=
  s.batch / s.groupSize

def biasGroups? (s : Shape) : Except Fault Nat :=
  if s.groupSize = 0 then .error .zeroDivisor else .ok s.biasGroups

/-- Scores of one head: a query row for every query, a column for every key. -/
def scoresPerHead (s : Shape) : Nat :=
  s.numQueries * s.numKeys

/-- Sizes with their names, in the order in which they are checked. -/
def named (s : Shape) : List (String × Nat) :=
  [("batch", s.batch), ("heads", s.heads), ("num_queries", s.numQueries),
    ("num_keys", s.numKeys), ("head_dim", s.headDim), ("head_dim_value", s.headDimValue),
    ("group_size", s.groupSize)]

end Shape

/-- One (batch, head) pair: the work of one compute unit. -/
structure UnitCoord where
  batchId : Nat
  head : Nat
  deriving DecidableEq, Repr, Inhabited

namespace UnitCoord

/-- Row-major number of the unit, also the number of its workspace slice. -/
def index (u : UnitCoord) (heads : Nat) : Nat :=
  u.batchId * heads + u.head

end UnitCoord

end FusedAttention
