import FusedAttention.Kernel.RowSums
import FusedAttention.Kernel.Schedule
import FusedAttention.Kernel.Stage
import FusedAttention.Kernel.Walk
import FusedAttention.Launch.Request

/-! The work of one unit: the loop over all pairs of tiles of one (batch, head) pair. A key
tile is loaded once for all query tiles that it attends to. Its own gradients are
complete after these; the gradient of a query tile is complete after the last key tile
that visits it. -/
namespace FusedAttention

/-- All that the units of one launch have in common and only read. -/
structure Kernel (α ε : Type) where
  request : Request α ε
  plan : Plan
  workspace : WorkspaceLayout
  scale : α
  dropout : Dropout
  overflow : Overflow
  policy : QueryStart

/-- The memory that one unit writes: the gradients that it shares with others and the slice
of the workspace that it has to itself. -/
structure UnitMemory (α ε : Type) where
  grads : Gradients (Array ε)
  biasGrads : Biases (Option (Array α))
  workspace : Option (Array α)

/-- A unit between two pairs of tiles. `gradK` and `gradV` are the accumulators that stay
across the query loop where the plan keeps them in registers. -/
structure UnitState (α ε : Type) (t : TileSize) where
  memory : UnitMemory α ε
  mask : Option MaskSource
  scratch : Scratch α t
  gradK : Tile α t.blockJ t.blockI
  gradV : Tile α t.blockJ t.blockI

/-- The rows of one unit in every tensor. -/
structure UnitView (α : Type) where
  coord : UnitCoord
  inputs : Operands Window
  grads : Gradients Window
  lse : Array α
  delta : Array α

variable {α ε : Type} [Scalar α] [Element ε α]

namespace Kernel

def shape (kernel : Kernel α ε) : Shape := kernel.request.shape

def tiles (kernel : Kernel α ε) : TileSize := kernel.plan.tiles

/-- Extent of the pair of tiles at a query row and a key row. -/
def extent (kernel : Kernel α ε) (queryStart keyStart : Nat) : TileExtent where
  queryStart := queryStart
  keyStart := keyStart
  rowsI := min kernel.tiles.blockI (kernel.shape.numQueries - queryStart)
  rowsJ := min kernel.tiles.blockJ (kernel.shape.numKeys - keyStart)

/-- First query tile of the key tile at `keyStart`. -/
def firstQuery (kernel : Kernel α ε) (keyStart : Nat) : Nat :=
  firstQueryTile kernel.policy keyStart kernel.shape.numQueries kernel.tiles.blockI

/-- The pair that follows another in the walk of the unit. -/
def following (kernel : Kernel α ε) (queryStart keyStart : Nat) : Nat × Nat :=
  nextIteration kernel.policy kernel.shape.numQueries kernel.tiles.blockI kernel.tiles.blockJ
    (queryStart, keyStart)

/-- Where a pair falls among the query tiles of its key tile. -/
def keyVisit (kernel : Kernel α ε) (queryStart keyStart : Nat) : Visit where
  isFirst := queryStart = kernel.firstQuery keyStart
  isLast := (kernel.following queryStart keyStart).2 ≠ keyStart

/-- Where a pair falls among the key tiles of its query tile. The gradient of a query tile
is complete once the next key tile starts past it. -/
def queryVisit (kernel : Kernel α ε) (queryStart keyStart : Nat) : Visit :=
  let next := kernel.following kernel.shape.numQueries keyStart
  { isFirst := keyStart = 0
    isLast := queryStart < next.1 || kernel.shape.numKeys ≤ next.2 }

/-- The biases of the pair, a row for each query, the key mask first. -/
def biasTiles (kernel : Kernel α ε) (u : UnitCoord) (ext : TileExtent) :
    Except Fault (List (Tile α kernel.tiles.blockI kernel.tiles.blockJ)) :=
  [BiasKind.keyMask, .pairBias].filterMapM fun kind =>
    match kernel.request.biases.get kind with
    | none => .ok none
    | some data => do
      let window := kind.window kernel.shape u ext.queryStart ext.keyStart
      let tile ← Tile.load data window ext.rowsI ext.rowsJ
      return some tile

/-- Adds the score gradients of the pair to every bias gradient that is wanted. -/
def addBiasGrads (kernel : Kernel α ε) (u : UnitCoord) (ext : TileExtent)
    (ds : Tile α kernel.tiles.blockI kernel.tiles.blockJ) (grads : Biases (Option (Array α))) :
    Except Fault (Biases (Option (Array α))) :=
  grads.mapM fun kind grad =>
    match kernel.request.biases.get kind, grad with
    | some _, some grad => do
      let window := kind.window kernel.shape u ext.queryStart ext.keyStart
      let grad ← kind.accumulateGrad window ds ext.rowsI ext.rowsJ grad
      return some grad
    | _, grad => .ok grad

/-- One contribution to a gradient of the key tile: to the accumulator that stays, whose
single chunk covers all columns, or chunk by chunk. -/
def addKeySide {t : TileSize} (resident : Bool) (tile : ChunkedTile) (window : Window)
    (slot : Nat → Nat × Nat) (product : Tile α t.blockJ t.blockI → Nat → Tile α t.blockJ t.blockI)
    (acc : Tile α t.blockJ t.blockI) (target : Array ε) (workspace : Option (Array α)) :
    Except Fault (Tile α t.blockJ t.blockI × ChunkState α ε) :=
  if resident then .ok (product acc 0, ⟨target, workspace⟩)
  else do
    let state ← tile.accumulate window slot product ⟨target, workspace⟩
    return (acc, state)

/-- One contribution to the gradient of the query tile. Without slots for it in the
workspace, every contribution goes straight to the gradient. -/
def addQuerySide {t : TileSize} (hasSlots : Bool) (tile : ChunkedTile) (window : Window)
    (slot : Nat → Nat × Nat) (product : Tile α t.blockI t.blockJ → Nat → Tile α t.blockI t.blockJ)
    (target : Array ε) (workspace : Option (Array α)) : Except Fault (ChunkState α ε) :=
  if hasSlots then tile.accumulate window slot product ⟨target, workspace⟩
  else do
    let ⟨target, _⟩ ← tile.accumulate window slot product ⟨target, none⟩
    return ⟨target, workspace⟩

/-- The five products of one pair of tiles. -/
def runPair (kernel : Kernel α ε) (view : UnitView α) (keyStart : Nat)
    (state : UnitState α ε kernel.tiles) (queryStart : Nat) :
    Except Fault (UnitState α ε kernel.tiles) := do
  let ⟨⟨⟨gradQ, gradK, gradV⟩, biasGrads, workspace⟩, mask, scratch, accK, accV⟩ := state
  let headDim := kernel.shape.headDim
  let headDimValue := kernel.shape.headDimValue
  let resident := kernel.plan.outputInRegisters
  let ext := kernel.extent queryStart keyStart
  let keyVisit := kernel.keyVisit queryStart keyStart
  let queryVisit := kernel.queryVisit queryStart keyStart
  let scratch ← scratch.loadQueryTile kernel.request.inputs.q kernel.request.inputs.dO
    view.inputs.q view.inputs.dO view.lse view.delta ext headDim headDimValue
  let biases ← kernel.biasTiles view.coord ext
  let masked := mask.isSome
  mask.forM (·.checkRows kernel.overflow ext.queryStart ext.rowsI ext.keyStart)
  let (scratch, mask) ← scratch.recomputeScores ext headDim kernel.scale biases mask
  let scratch ← scratch.stageValues masked
  let tileV : ChunkedTile :=
    ⟨kernel.plan.gradV, kernel.plan.keyChunk, keyStart, ext.rowsJ, headDimValue, keyVisit⟩
  let (accV, ⟨gradV, workspace⟩) ← addKeySide resident tileV view.grads.gradV
    kernel.workspace.gradVSlot
    (fun acc offset => acc.mulAdd scratch.staging scratch.gradOutRows ext.rowsI offset)
    accV gradV workspace
  let (ds, scratch) ← scratch.computeScoreGrad headDimValue kernel.scale masked
  let biasGrads ← kernel.addBiasGrads view.coord ext ds biasGrads
  let scratch ← scratch.enter .queryGrad
  let tileQ : ChunkedTile :=
    ⟨kernel.plan.gradQ, kernel.plan.queryChunk, queryStart, ext.rowsI, headDim, queryVisit⟩
  let chunks := chunksOf headDim kernel.plan.queryChunk
  let ⟨gradQ, workspace⟩ ← addQuerySide (0 < kernel.workspace.gradQ) tileQ view.grads.gradQ
    (kernel.workspace.gradQSlot queryStart chunks)
    (fun acc offset => acc.mulAdd scratch.gradScores scratch.keyRows ext.rowsJ offset)
    gradQ workspace
  let scratch ← scratch.enter .keyGrad
  let tileK : ChunkedTile :=
    ⟨kernel.plan.gradK, kernel.plan.keyChunk, keyStart, ext.rowsJ, headDim, keyVisit⟩
  let (accK, ⟨gradK, workspace⟩) ← addKeySide resident tileK view.grads.gradK
    kernel.workspace.gradKSlot
    (fun acc offset => acc.transposeMulAdd scratch.gradScores scratch.queryRows ext.rowsI offset)
    accK gradK workspace
  return ⟨⟨⟨gradQ, gradK, gradV⟩, biasGrads, workspace⟩, mask, scratch, accK, accV⟩

/-- Writes the accumulators that stayed across the query loop to the gradients of the key
tile. -/
def storeResident (kernel : Kernel α ε) (view : UnitView α) (keyStart : Nat)
    (state : UnitState α ε kernel.tiles) : Except Fault (UnitState α ε kernel.tiles) := do
  let ⟨⟨⟨gradQ, gradK, gradV⟩, biasGrads, workspace⟩, mask, scratch, accK, accV⟩ := state
  let rows := min kernel.tiles.blockJ (kernel.shape.numKeys - keyStart)
  let gradK ← accK.store gradK (view.grads.gradK.sub keyStart 0) rows kernel.shape.headDim 1
    .overwrite
  let gradV ← accV.store gradV (view.grads.gradV.sub keyStart 0) rows
    kernel.shape.headDimValue 1 .overwrite
  return ⟨⟨⟨gradQ, gradK, gradV⟩, biasGrads, workspace⟩, mask, scratch, accK, accV⟩

/-- Fills the gradients of a key tile that attends to no query with zeros. -/
def clearKeyTile (kernel : Kernel α ε) (view : UnitView α) (keyStart : Nat)
    (state : UnitState α ε kernel.tiles) : Except Fault (UnitState α ε kernel.tiles) := do
  let ⟨⟨⟨gradQ, gradK, gradV⟩, biasGrads, workspace⟩, mask, scratch, accK, accV⟩ := state
  let rows := min kernel.tiles.blockJ (kernel.shape.numKeys - keyStart)
  let (gradK, gradV) ← zeroFillKeyRows gradK gradV (view.grads.gradK.sub keyStart 0)
    (view.grads.gradV.sub keyStart 0) rows kernel.shape.headDim kernel.shape.headDimValue
  return ⟨⟨⟨gradQ, gradK, gradV⟩, biasGrads, workspace⟩, mask, scratch, accK, accV⟩

/-- Loads a key tile that attends to some query. -/
def loadKeys (kernel : Kernel α ε) (view : UnitView α) (keyStart : Nat)
    (state : UnitState α ε kernel.tiles) : Except Fault (UnitState α ε kernel.tiles) :=
  if kernel.firstQuery keyStart < kernel.shape.numQueries then do
    let ⟨memory, mask, scratch, accK, accV⟩ := state
    let scratch ← scratch.loadKeyTile kernel.request.inputs.k kernel.request.inputs.v
      view.inputs.k view.inputs.v (kernel.extent (kernel.firstQuery keyStart) keyStart)
      kernel.shape.headDim kernel.shape.headDimValue
    return ⟨memory, mask, scratch, accK, accV⟩
  else .ok state

/-- All pairs of one key tile, in the order of their queries. -/
def runQueries (kernel : Kernel α ε) (view : UnitView α) (keyStart : Nat)
    (state : UnitState α ε kernel.tiles) : Except Fault (UnitState α ε kernel.tiles) := do
  let state ← kernel.loadKeys view keyStart state
  (tileStarts (kernel.firstQuery keyStart) kernel.shape.numQueries kernel.tiles.blockI).foldlM
    (kernel.runPair view keyStart) state

/-- One key tile with all query tiles that it attends to. -/
def runKeyTile (kernel : Kernel α ε) (view : UnitView α) (state : UnitState α ε kernel.tiles)
    (keyStart : Nat) : Except Fault (UnitState α ε kernel.tiles) :=
  if kernel.plan.outputInRegisters then do
    let ⟨memory, mask, scratch, _, _⟩ := state
    let state ← kernel.runQueries view keyStart ⟨memory, mask, scratch, .fill 0, .fill 0⟩
    kernel.storeResident view keyStart state
  else if kernel.shape.numQueries ≤ kernel.firstQuery keyStart then
    kernel.clearKeyTile view keyStart state
  else kernel.runQueries view keyStart state

/-- Computes Delta into the row of the unit, and then all gradients of the unit. -/
def runUnit (kernel : Kernel α ε) (coord : UnitCoord) (delta : Array α)
    (memory : UnitMemory α ε) : Except Fault (Array α × UnitMemory α ε) := do
  let s := kernel.shape
  let request := kernel.request
  kernel.overflow.check (kernel.dropout.unitPlace s coord)
  let inputs := request.inputLayouts.map (·.unitWindow coord)
  let lse ← sliceOf request.lse (request.lseLayout.unitOffset coord) s.numQueries
  let delta ← computeDelta request.inputs.o request.inputs.dO inputs.o inputs.dO s.numQueries
    s.headDimValue kernel.tiles.blockI delta
  let view : UnitView α :=
    { coord, inputs, grads := request.gradLayouts.map (·.unitWindow coord), lse, delta }
  let state : UnitState α ε kernel.tiles :=
    { memory
      mask := MaskSource.forUnit kernel.dropout s coord
      scratch := .fresh kernel.tiles
      gradK := .fill 0
      gradV := .fill 0 }
  let state ← (tileStarts 0 s.numKeys kernel.tiles.blockJ).foldlM (kernel.runKeyTile view) state
  return (delta, state.memory)

end Kernel

end FusedAttention
