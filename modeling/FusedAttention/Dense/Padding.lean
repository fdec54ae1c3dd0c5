import FusedAttention.Shape.Operands
import FusedAttention.Window

/-! Padding of dense rows to whole vector lines, and back. -/
namespace FusedAttention

/-- The layouts of the padded tensors. -/
def Shape.alignedLayouts (s : Shape) : Operands Layout :=
  s.operandExtents.map fun (rows, cols) => .aligned rows s.heads cols

def Shape.alignedGradLayouts (s : Shape) : Gradients Layout :=
  s.gradientExtents.map fun (rows, cols) => .aligned rows s.heads cols

/-- Dense rows of `cols` elements, each copied to the front of a row of `stride` zeros. -/
def padRows {ε : Type} (zero : ε) (dense : Array ε) (cols stride : Nat) : Except Fault (Array ε) :=
  if cols = stride then .ok dense
  else if cols = 0 ∨ stride = 0 then .error .zeroDivisor
  else do
    let rows := (runsOf dense cols).take (dense.size / cols)
    let padded ← rows.mapM (putRun (Array.replicate stride zero) 0)
    return padded.foldl (· ++ ·) #[]

/-- The first `cols` elements of each of the rows that stand `stride` apart. -/
def stripRows {ε : Type} (padded : Array ε) (cols stride : Nat) : Except Fault (Array ε) :=
  if cols = stride then .ok padded
  else if stride = 0 then .error .zeroDivisor
  else do
    let rows ← (runsOf padded stride).mapM (sliceOf · 0 cols)
    return rows.foldl (· ++ ·) #[]

/-- A dense log-sum-exp, one row a unit, laid out with padded rows. -/
def padLse {α : Type} [Zero α] (s : Shape) (l : LseLayout) (dense : Array α) :
    Except Fault (Array α) :=
  let heads := max s.heads 1
  (runsOf dense (max s.numQueries 1)).zipIdx.foldlM
    (fun padded (row, unit) => putRun padded (l.unitOffset ⟨unit / heads, unit % heads⟩) row)
    (Array.replicate (s.batch * l.batchStride) 0)

end FusedAttention
