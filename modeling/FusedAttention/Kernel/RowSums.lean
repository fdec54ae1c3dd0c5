import FusedAttention.Lanes
import FusedAttention.Window

/-! The row sums `Delta[r] = ∑ c, O[r, c] * dO[r, c]`. -/
namespace FusedAttention

/-- Threads of one compute unit. -/
def unitThreads : Nat := 128

/-- Threads that share one row when a unit covers `blockI` rows at a time. -/
def threadsPerRow (blockI : Nat) : Nat :=
  max (unitThreads / blockI) 1

/-- `threadsPerRow` for a block size that is not known to be positive. -/
def threadsPerRow? (blockI : Nat) : Except Fault Nat :=
  if blockI = 0 then .error .zeroDivisor else .ok (threadsPerRow blockI)

/-- Writes Delta of the first `numQueries` rows; the other entries keep their value. -/
def computeDelta {α ε : Type} [Scalar α] [Element ε α] (o dO : Array ε) (windowO windowDO : Window)
    (numQueries headDimValue blockI : Nat) (out : Array α) : Except Fault (Array α) := do
  let lanes ← threadsPerRow? blockI
  (List.range (min numQueries out.size)).foldlM (fun out row => do
    let rowO ← windowO.row o row headDimValue
    let rowDO ← windowDO.row dO row headDimValue
    let delta ← Lanes.stripedDot rowO rowDO lanes
    return out.setIfInBounds row delta) out

end FusedAttention
