import FusedAttention.Bias
import FusedAttention.Dropout
import FusedAttention.Kernel.Scratch
import FusedAttention.Tile.Product

/-! The stages of one pair of a query tile and a key tile: loading both, computing their
probabilities again from the scores, and the score gradients with their share of the bias
gradients. A stage enters its phase, reads regions of earlier ones and replaces its own. -/
namespace FusedAttention

/-- Position of a pair of tiles and the extents of its part inside the problem. -/
structure TileExtent where
  queryStart : Nat
  keyStart : Nat
  rowsI : Nat
  rowsJ : Nat
  deriving DecidableEq, Repr

namespace Scratch

variable {α ε : Type} [Scalar α] [Element ε α] {t : TileSize}

/-- Loads the rows of K and V of the key tile. -/
def loadKeyTile (s : Scratch α t) (k v : Array ε) (windowK windowV : Window) (ext : TileExtent)
    (headDim headDimValue : Nat) : Except Fault (Scratch α t) := do
  let s ← s.enter .loadKeys
  let keyRows ← Tile.load k (windowK.sub ext.keyStart 0) ext.rowsJ headDim
  let valueRows ← Tile.load v (windowV.sub ext.keyStart 0) ext.rowsJ headDimValue
  return { s with keyRows, valueRows }

/-- Loads the rows of Q and dO of the query tile with their log-sum-exp and Delta. Rows
past the end have an infinite log-sum-exp, which makes their probabilities zero. -/
def loadQueryTile (s : Scratch α t) (q dO : Array ε) (windowQ windowDO : Window)
    (lse delta : Array α) (ext : TileExtent) (headDim headDimValue : Nat) :
    Except Fault (Scratch α t) := do
  let s ← s.enter .loadQueries
  let queryRows ← Tile.load q (windowQ.sub ext.queryStart 0) ext.rowsI headDim
  let gradOutRows ← Tile.load dO (windowDO.sub ext.queryStart 0) ext.rowsI headDimValue
  let lseFrom ← sliceOf lse ext.queryStart (lse.size - ext.queryStart)
  let lse ← loadVector t.blockI lseFrom ext.rowsI Scalar.infinity
  let deltaFrom ← sliceOf delta ext.queryStart (delta.size - ext.queryStart)
  let delta ← loadVector t.blockI deltaFrom ext.rowsI 0
  return { s with queryRows, gradOutRows, lse, delta }

/-- The probability of one entry from its product of rows: the scaled product and the
biases one after the other, less the log-sum-exp of the row, under the exponential. -/
@[inline] def probability {i j : Nat} (scale lse product : α) (biases : List (Tile α i j))
    (row : Fin i) (col : Fin j) : α :=
  Scalar.exp (biases.foldl (fun score bias => score + bias.get row col) (product * scale) - lse)

/-- The factors of dropout in the leading block of a tile, zeros outside it. -/
def maskTile (source : MaskSource) (ext : TileExtent) : Tile α t.blockI t.blockJ × MaskSource :=
  let (rows, source) := (List.range ext.rowsI).foldl (fun (rows, source) i =>
    let (row, source) := source.row (ext.queryStart + i) ext.keyStart ext.rowsJ
    (rows.push row, source)) ((#[] : Array (Array α)), source)
  (.ofFn fun i j => (rows.getD i.val #[]).getD j.val 0, source)

/-- Computes the probabilities of the pair, zero outside its valid block, and the mask if
there is a source for one. -/
def recomputeScores (s : Scratch α t) (ext : TileExtent) (headDim : Nat) (scale : α)
    (biases : List (Tile α t.blockI t.blockJ)) (source : Option MaskSource) :
    Except Fault (Scratch α t × Option MaskSource) := do
  let s ← s.enter .scoreRecompute
  let scores : Tile α t.blockJ t.blockI :=
    (Tile.fill 0).mulTransposeAdd s.keyRows s.queryRows headDim
  let probT : Tile α t.blockJ t.blockI := .ofFn fun j i =>
    if j.val < ext.rowsJ ∧ i.val < ext.rowsI then
      probability scale s.lse[i] (scores.get j i) biases i j
    else 0
  match source with
  | none => return ({ s with probT }, none)
  | some source =>
    let (mask, source) := maskTile source ext
    return ({ s with probT, mask }, some source)

/-- The probabilities as the value gradient takes them: under the mask if there is one. -/
def stageValues (s : Scratch α t) (masked : Bool) : Except Fault (Scratch α t) := do
  let s ← s.enter .valueGrad
  let staging := if masked then .ofFn fun j i => s.probT.get j i * s.mask.get i j else s.probT
  return { s with staging }

/-- The score gradients before they are scaled: `P * (dP - Delta)`, where `dP` is the
product of dO and V under the mask if there is one. -/
def scoreGradients (s : Scratch α t) (headDimValue : Nat) (masked : Bool) :
    Tile α t.blockI t.blockJ :=
  let dp : Tile α t.blockI t.blockJ :=
    (Tile.fill 0).mulTransposeAdd s.gradOutRows s.valueRows headDimValue
  .ofFn fun i j =>
    let dp := if masked then dp.get i j * s.mask.get i j else dp.get i j
    s.probT.get j i * (dp - s.delta[i])

/-- Computes the score gradients. The bias gradients receive them before the scale is
applied. -/
def computeScoreGrad (s : Scratch α t) (headDimValue : Nat) (scale : α) (masked : Bool) :
    Except Fault (Tile α t.blockI t.blockJ × Scratch α t) := do
  let s ← s.enter .scoreGrad
  let ds := s.scoreGradients headDimValue masked
  return (ds, { s with gradScores := ds.scale scale })

end Scratch

end FusedAttention
