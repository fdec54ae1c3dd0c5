import FusedAttention.Shape
import FusedAttention.Tile.Accumulation

/-! What follows from the element type and the tile extents: which gradients are kept
where between visits, and how the workspace is split. Sizes are natural numbers, on the assumption
that those of all slots, units and the whole workspace fit 64 bits. -/
namespace FusedAttention

/-- Extents of the tiles of one kernel: query rows, key rows and the largest head
dimension. -/
structure TileSize where
  blockI : Nat
  blockJ : Nat
  maxHeadDim : Nat
  deriving DecidableEq, Repr, Inhabited

/-- Traits of one launch. -/
structure Plan where
  tiles : TileSize
  isHalf : Bool
  /-- Key-side gradients stay in the accumulator across the whole query loop and are
  written once. -/
  outputInRegisters : Bool
  gradQ : Strategy
  gradK : Strategy
  gradV : Strategy
  deriving DecidableEq, Repr, Inhabited

/-- Split of the workspace. Each unit owns `unitStride` consecutive elements: the slots
of gradK, then those of gradV, then those of gradQ. -/
structure WorkspaceLayout where
  blockI : Nat
  blockJ : Nat
  gradK : Nat
  gradV : Nat
  gradQ : Nat
  unitStride : Nat
  units : Nat
  deriving DecidableEq, Repr, Inhabited

namespace Plan

def of (dtype : DType) (tiles : TileSize) : Plan :=
  let wide := dtype == .f32
  let resident := dtype.isHalf && tiles.maxHeadDim ≤ tiles.blockI
  let keySide := if resident then .inPlace else Strategy.forOutput wide
  { tiles
    isHalf := dtype.isHalf
    outputInRegisters := resident
    gradQ := .forOutput wide
    gradK := keySide
    gradV := keySide }

/-- Columns of one chunk of the gradK and gradV products. -/
def keyChunk (p : Plan) : Nat := p.tiles.blockI

/-- Columns of one chunk of the gradQ product. -/
def queryChunk (p : Plan) : Nat := p.tiles.blockJ

/-- Workspace of one unit and of all. A single key tile finishes every gradQ tile in one
visit, so gradQ needs slots only where there are more. -/
def workspaceLayout (p : Plan) (s : Shape) : WorkspaceLayout :=
  let keys := alignUp s.numKeys p.tiles.blockJ
  let gradK := if p.gradK.usesWorkspace then keys * alignUp s.headDim p.keyChunk else 0
  let gradV := if p.gradV.usesWorkspace then keys * alignUp s.headDimValue p.keyChunk else 0
  let gradQ := if p.gradQ.usesWorkspace && p.tiles.blockJ < s.numKeys then
      alignUp s.numQueries p.tiles.blockI * alignUp s.headDim p.queryChunk
    else 0
  { blockI := p.tiles.blockI
    blockJ := p.tiles.blockJ
    gradK, gradV, gradQ
    unitStride := alignUp (gradK + gradV + gradQ) 4
    units := s.units }

/-- `workspaceLayout` for block sizes that are not known to be positive: a size is
divided by only where its gradient takes slots. -/
def workspaceLayout? (p : Plan) (s : Shape) : Except Fault WorkspaceLayout :=
  let dividesByI := p.gradK.usesWorkspace || p.gradV.usesWorkspace ||
    (p.gradQ.usesWorkspace && p.tiles.blockJ < s.numKeys)
  if p.tiles.blockJ = 0 ∨ (p.tiles.blockI = 0 ∧ dividesByI) then .error .zeroDivisor
  else .ok (p.workspaceLayout s)

end Plan

namespace WorkspaceLayout

def elements (w : WorkspaceLayout) : Nat :=
  w.units * w.unitStride

/-- Size in bytes of four-byte elements. -/
def sizeInBytes (w : WorkspaceLayout) : Nat :=
  w.elements * 4

def isEmpty (w : WorkspaceLayout) : Bool :=
  w.unitStride = 0

/-- Length of every slot: one accumulator tile. -/
def slotLen (w : WorkspaceLayout) : Nat :=
  w.blockI * w.blockJ

/-- Start and length, within a unit's slice, of the slot of a gradK column chunk. Every
key tile uses the same slots. -/
def gradKSlot (w : WorkspaceLayout) (chunk : Nat) : Nat × Nat :=
  (chunk * w.slotLen, w.slotLen)

def gradVSlot (w : WorkspaceLayout) (chunk : Nat) : Nat × Nat :=
  (w.gradK + chunk * w.slotLen, w.slotLen)

/-- Slot of a column chunk of the gradQ tile that starts at row `queryStart`, of
`numChunks` chunks a tile. -/
def gradQSlot (w : WorkspaceLayout) (queryStart numChunks chunk : Nat) : Nat × Nat :=
  (w.gradK + w.gradV + (chunk + queryStart / w.blockI * numChunks) * w.slotLen, w.slotLen)

def gradQSlot? (w : WorkspaceLayout) (queryStart numChunks chunk : Nat) :
    Except Fault (Nat × Nat) :=
  if w.blockI = 0 then .error .zeroDivisor else .ok (w.gradQSlot queryStart numChunks chunk)

end WorkspaceLayout

end FusedAttention
