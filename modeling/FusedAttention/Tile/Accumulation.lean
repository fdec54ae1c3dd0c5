import FusedAttention.Shape
import FusedAttention.Tile.Transfer

/-! Accumulation of an output tile over several visits. Between two visits the partial
sum lives in the output itself, which is read, added to and written back, or in a workspace
slot of the wide arithmetic that is rounded only on the last visit. -/
namespace FusedAttention

variable {α ε : Type}

inductive Strategy where
  | inPlace
  | workspace
  deriving DecidableEq, Repr, Inhabited

/-- Where one contribution falls among those of its output tile. -/
structure Visit where
  isFirst : Bool
  isLast : Bool
  deriving DecidableEq, Repr

namespace Strategy

def name : Strategy → String
  | .inPlace => "in-place"
  | .workspace => "workspace"

/-- A workspace, unless the output can hold the running sum exactly. -/
def forOutput (outputIsWide : Bool) : Strategy :=
  if outputIsWide then .inPlace else .workspace

def usesWorkspace (s : Strategy) : Bool :=
  s == .workspace

variable [Scalar α] [Element ε α] {r c : Nat}

/-- The accumulator ready for the next contribution: zero on the first visit, otherwise
reloaded from its slot. In-place sums and sums without a slot start from zero each time. -/
def prime (s : Strategy) (visit : Visit) (slot : Option (Array α)) : Except Fault (Tile α r c) :=
  match s, slot with
  | .workspace, some run => if visit.isFirst then .ok (.fill 0) else Tile.ofRun run
  | _, _ => .ok (.fill 0)

/-- Retires the accumulator after a contribution: parked in its slot while more follow,
otherwise stored. Gives the slot and the destination after it. -/
def flush (s : Strategy) (acc : Tile α r c) (visit : Visit) (slot : Option (Array α))
    (target : Array ε) (window : Window) (rows cols : Nat) :
    Except Fault (Option (Array α) × Array ε) :=
  match s, visit.isLast, slot with
  | .workspace, false, some run => do
    let parked ← acc.park run
    return (some parked, target)
  | s, _, slot => do
    let mode := StoreMode.ofFirst (visit.isFirst || s.usesWorkspace)
    let target ← acc.store target window rows cols 1 mode
    return (slot, target)

end Strategy

/-- An output tile that is accumulated in column chunks of `width`. -/
structure ChunkedTile where
  strategy : Strategy
  width : Nat
  rowStart : Nat
  rows : Nat
  cols : Nat
  visit : Visit

/-- Destination and workspace of a chunked tile between two chunks. -/
structure ChunkState (α ε : Type) where
  target : Array ε
  workspace : Option (Array α)

namespace ChunkedTile

variable [Scalar α] [Element ε α] {r c : Nat}

/-- The slot of a chunk, if the tile keeps its sums in a workspace that is there. -/
def slotOf (tile : ChunkedTile) (workspace : Option (Array α)) (start length : Nat) :
    Except Fault (Option (Array α)) :=
  match workspace with
  | some buffer =>
    if tile.strategy.usesWorkspace then (sliceOf buffer start length).map some else .ok none
  | none => .ok none

/-- One contribution to one column chunk: prime, add the product, flush. -/
def accumulateChunk (tile : ChunkedTile) (window : Window) (slot : Nat → Nat × Nat)
    (product : Tile α r c → Nat → Tile α r c) (state : ChunkState α ε) (chunk : Nat) :
    Except Fault (ChunkState α ε) := do
  let ⟨target, workspace⟩ := state
  let colStart := chunk * tile.width
  let (start, length) := slot chunk
  let run ← tile.slotOf workspace start length
  let acc ← tile.strategy.prime tile.visit run
  let acc := product acc colStart
  let (run, target) ← tile.strategy.flush acc tile.visit run target
    (window.sub tile.rowStart colStart) tile.rows (min tile.width (tile.cols - colStart))
  let workspace := match workspace, run with
    | some buffer, some values => some (writeRun buffer start values)
    | workspace, _ => workspace
  return ⟨target, workspace⟩

/-- One contribution to every column chunk of the tile. -/
def accumulate (tile : ChunkedTile) (window : Window) (slot : Nat → Nat × Nat)
    (product : Tile α r c → Nat → Tile α r c) (state : ChunkState α ε) :
    Except Fault (ChunkState α ε) :=
  (List.range (chunksOf tile.cols tile.width)).foldlM
    (tile.accumulateChunk window slot product) state

end ChunkedTile

end FusedAttention
