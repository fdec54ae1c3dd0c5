import FusedAttention.Bias
import FusedAttention.Dropout
import FusedAttention.Shape.Operands

/-! Distribution of the (batch, head) pairs over units. Units meet only in the bias
gradients, so those that share a part of one are put into a group and run in order. -/
namespace FusedAttention

/-- Where the rows of one unit start in every tensor, and its first word of the dropout
stream. -/
structure UnitOffsets where
  inputs : Operands Nat
  grads : Gradients Nat
  lse : Nat
  delta : Nat
  dropout : Nat
  deriving Repr, Inhabited

namespace Shape

/-- Folds the strides between batches and heads into one offset for each tensor. -/
def unitOffsets (s : Shape) (inputs : Operands Layout) (grads : Gradients Layout)
    (lse : LseLayout) (dropout : Dropout) (u : UnitCoord) : UnitOffsets where
  inputs := inputs.map (·.unitOffset u)
  grads := grads.map (·.unitOffset u)
  lse := lse.unitOffset u
  delta := u.index s.heads * s.numQueries
  dropout := dropout.unitOffset s u

/-- All pairs, head after head and batch after batch. -/
def unitCoords (s : Shape) : List UnitCoord :=
  (List.range s.batch).flatMap fun batchId => (List.range s.heads).map fun head => ⟨batchId, head⟩

/-- What the units of one group have in common. With a gradient of the key mask all heads
of a batch write the same entries, with one of the pair bias all batches that share it. -/
def groupKey (s : Shape) (wanted : Biases Bool) (u : UnitCoord) : Nat × Nat :=
  (if wanted.pairBias then u.batchId / s.groupSize else u.batchId,
    if wanted.keyMask then 0 else u.head)

/-- The keys of all groups in increasing order. -/
def groupKeys (s : Shape) (wanted : Biases Bool) : List (Nat × Nat) :=
  let batches := if wanted.pairBias then chunksOf s.batch s.groupSize else s.batch
  let heads := if wanted.keyMask then min 1 s.heads else s.heads
  (List.range batches).flatMap fun batch => (List.range heads).map fun head => (batch, head)

/-- The groups by increasing key, the units of each in the order of `unitCoords`. -/
def unitGroups (s : Shape) (wanted : Biases Bool) : List (List UnitCoord) :=
  (s.groupKeys wanted).map fun key => s.unitCoords.filter (s.groupKey wanted · == key)

/-- `unitGroups` for a group size that is not known to be positive. -/
def unitGroups? (s : Shape) (wanted : Biases Bool) : Except Fault (List (List UnitCoord)) :=
  if wanted.pairBias ∧ s.groupSize = 0 ∧ s.batch * s.heads ≠ 0 then .error .zeroDivisor
  else .ok (s.unitGroups wanted)

end Shape

end FusedAttention
