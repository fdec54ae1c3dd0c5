import FusedAttention.Shape
import FusedAttention.Window

/-! Where the elements of a `[batch, rows, heads, cols]` tensor lie in its buffer. Strides, offsets
and addresses are natural numbers, on the assumption that they and all sums and products of them
fit the 64 bits of a machine word; a subtraction below zero, which an empty extent leads to, is a
fault. -/
namespace FusedAttention

/-- Strides of a tensor with contiguous columns. -/
structure Layout where
  offset : Nat
  batchStride : Nat
  rowStride : Nat
  headStride : Nat
  deriving DecidableEq, Repr, Inhabited

namespace Layout

/-- Dense `[batch, rows, heads, cols]`. -/
def packed (rows heads cols : Nat) : Layout :=
  ⟨0, rows * heads * cols, heads * cols, cols⟩

/-- Dense but for the rows of each head, which are padded to whole lines. -/
def aligned (rows heads cols : Nat) : Layout :=
  packed rows heads (alignUp cols lineSize)

/-- Address of the first element of a unit. -/
def unitOffset (l : Layout) (u : UnitCoord) : Nat :=
  l.offset + u.batchId * l.batchStride + u.head * l.headStride

/-- The rows of one unit. -/
def unitWindow (l : Layout) (u : UnitCoord) : Window :=
  ⟨l.unitOffset u, l.rowStride⟩

/-- Address of one element. -/
def address (l : Layout) (u : UnitCoord) (row col : Nat) : Nat :=
  l.unitOffset u + row * l.rowStride + col

/-- Least length of a buffer that holds every element, for positive extents. -/
def requiredLen (l : Layout) (batch rows heads cols : Nat) : Nat :=
  l.offset + (batch - 1) * l.batchStride + (rows - 1) * l.rowStride +
    (heads - 1) * l.headStride + cols

/-- `requiredLen` for extents that are not known to be positive. -/
def requiredLen? (l : Layout) (batch rows heads cols : Nat) : Except Fault Nat :=
  if batch = 0 ∨ rows = 0 ∨ heads = 0 then .error .emptyExtent
  else .ok (l.requiredLen batch rows heads cols)

/-- Strides and extents of the dimensions that have more than one index, by stride. -/
def steps (l : Layout) (batch rows heads : Nat) : List (Nat × Nat) :=
  ([(l.batchStride, batch), (l.rowStride, rows), (l.headStride, heads)].filter (1 < ·.2)).mergeSort
    fun a b => a.1 < b.1 || (a.1 == b.1 && a.2 ≤ b.2)

/-- Whether each dimension steps past all that the ones before it span. -/
def stepsClear : Nat → List (Nat × Nat) → Bool
  | _, [] => true
  | span, (stride, extent) :: rest =>
    span ≤ stride && stepsClear (span + stride * (extent - 1)) rest

/-- A sufficient condition for no two elements to share an address: sorted by stride,
each dimension steps past everything the smaller ones span. -/
def isInjective (l : Layout) (batch rows heads cols : Nat) : Bool :=
  stepsClear cols (l.steps batch rows heads)

end Layout

/-- Strides of the `[batch, heads, queries]` log-sum-exp tensor. -/
structure LseLayout where
  batchStride : Nat
  headStride : Nat
  deriving DecidableEq, Repr, Inhabited

namespace LseLayout

/-- Dense but for the row of each head, which is padded to a multiple of eight. -/
def padded (heads numQueries : Nat) : LseLayout :=
  ⟨heads * alignUp numQueries 8, alignUp numQueries 8⟩

def unitOffset (l : LseLayout) (u : UnitCoord) : Nat :=
  u.batchId * l.batchStride + u.head * l.headStride

end LseLayout

end FusedAttention
