import FusedAttention.Kernel.Workspace
import FusedAttention.Tile

/-! Scratch storage of one unit: the tiles that its phases produce and read. A phase is
entered before its regions are touched, which fails if the phase may not come next. This is
the build with debug assertions, which are what checks the order. -/
namespace FusedAttention

/-- The regions of a unit's scratch storage and the phase that was entered last. -/
structure Scratch (α : Type) (t : TileSize) where
  phase : Phase
  keyRows : Tile α t.blockJ t.maxHeadDim
  valueRows : Tile α t.blockJ t.maxHeadDim
  queryRows : Tile α t.blockI t.maxHeadDim
  gradOutRows : Tile α t.blockI t.maxHeadDim
  lse : Vector α t.blockI
  delta : Vector α t.blockI
  /-- Probabilities, a row for each key. -/
  probT : Tile α t.blockJ t.blockI
  mask : Tile α t.blockI t.blockJ
  /-- The probabilities as they enter the value gradient, after dropout. -/
  staging : Tile α t.blockJ t.blockI
  gradScores : Tile α t.blockI t.blockJ

namespace Scratch

variable {α : Type} {t : TileSize}

/-- Storage of zeros that is ready to load keys. -/
def fresh [Zero α] (t : TileSize) : Scratch α t where
  phase := .loadKeys
  keyRows := .fill 0
  valueRows := .fill 0
  queryRows := .fill 0
  gradOutRows := .fill 0
  lse := .replicate _ 0
  delta := .replicate _ 0
  probT := .fill 0
  mask := .fill 0
  staging := .fill 0
  gradScores := .fill 0

/-- Enters a phase. The regions stay as they are, and so does all else if the phase is
refused. The order is checked by a debug assertion, so only builds with debug assertions
refuse a phase. -/
def enter (s : Scratch α t) (next : Phase) : Except Fault (Scratch α t) :=
  if s.phase.allows next then .ok { s with phase := next }
  else .error (.phaseOrder s.phase next)

end Scratch

/-- Bytes of scratch storage of four-byte elements. -/
def TileSize.scratchBytes (t : TileSize) : Nat :=
  (2 * t.blockJ * t.maxHeadDim + 2 * t.blockI * t.maxHeadDim + 2 * t.blockI +
    4 * t.blockI * t.blockJ) * 4

end FusedAttention
