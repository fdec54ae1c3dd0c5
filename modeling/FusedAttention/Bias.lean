import FusedAttention.Shape
import FusedAttention.Tile.Transfer

/-! The two biases that can be added to the scores, each with its own broadcast over
units and queries, and the sums into their gradients. -/
namespace FusedAttention

/-- A key mask is shared by all heads and queries of a batch; a pair bias has an entry for
every query and key and is shared by the batches of a group. -/
inductive BiasKind where
  | keyMask
  | pairBias
  deriving DecidableEq, Repr

/-- Which biases take part in the scores. -/
inductive BiasMode where
  | none
  | keyMask
  | pairBias
  | both
  deriving DecidableEq, Repr, Inhabited

namespace BiasMode

def all : List BiasMode := [.none, .keyMask, .pairBias, .both]

def name : BiasMode → String
  | .none => "none"
  | .keyMask => "key-mask"
  | .pairBias => "pair-bias"
  | .both => "both"

def ofName? (name : String) : Option BiasMode :=
  all.find? (·.name == name)

def has : BiasMode → BiasKind → Bool
  | .none, _ => false
  | .keyMask, kind => kind == .keyMask
  | .pairBias, kind => kind == .pairBias
  | .both, _ => true

end BiasMode

/-- Something for each bias. -/
structure Biases (τ : Type) where
  keyMask : τ
  pairBias : τ
  deriving Repr, Inhabited

namespace Biases

variable {τ υ : Type}

def get (b : Biases τ) : BiasKind → τ
  | .keyMask => b.keyMask
  | .pairBias => b.pairBias

def map (f : τ → υ) (b : Biases τ) : Biases υ :=
  ⟨f b.keyMask, f b.pairBias⟩

/-- Applies `f` to both, the key mask first. -/
def mapM {m : Type → Type} [Monad m] (f : BiasKind → τ → m υ) (b : Biases τ) : m (Biases υ) := do
  let keyMask ← f .keyMask b.keyMask
  let pairBias ← f .pairBias b.pairBias
  return ⟨keyMask, pairBias⟩

end Biases

namespace BiasKind

def name : BiasKind → String
  | .keyMask => "bias1"
  | .pairBias => "bias2"

/-- Name of the gradient. -/
def gradName : BiasKind → String
  | .keyMask => "grad_bias1"
  | .pairBias => "grad_bias2"

/-- Dimensions of the bias and of its gradient. -/
def dims : BiasKind → Shape → List Nat
  | .keyMask, s => [s.batch, s.numKeys]
  | .pairBias, s => [s.biasGroups, s.heads, s.numQueries, s.numKeys]

/-- Elements of the bias and of its gradient. -/
def size (kind : BiasKind) (s : Shape) : Nat :=
  extent (kind.dims s)

/-- A pair bias is counted in groups, which cannot be empty. -/
def check (kind : BiasKind) (s : Shape) : Except Fault Unit :=
  if kind = .pairBias ∧ s.groupSize = 0 then .error .zeroDivisor else .ok ()

/-- Address of the first entry of a unit. -/
def unitOffset : BiasKind → Shape → UnitCoord → Nat
  | .keyMask, s, u => u.batchId * s.numKeys
  | .pairBias, s, u => (u.batchId / s.groupSize * s.heads + u.head) * s.scoresPerHead

/-- Distance of two consecutive queries. -/
def queryStride : BiasKind → Shape → Nat
  | .keyMask, _ => 0
  | .pairBias, s => s.numKeys

/-- The entries of a unit from one query and key on, a row for each query. -/
def window (kind : BiasKind) (s : Shape) (u : UnitCoord) (queryStart keyStart : Nat) : Window :=
  ⟨kind.unitOffset s u + queryStart * kind.queryStride s + keyStart, kind.queryStride s⟩

variable {α : Type} [Scalar α] {r c : Nat}

/-- Adds the sums of the columns of the leading `rows` rows to the `cols` entries of the
window's first row. -/
def addColumns (window : Window) (ds : Tile α r c) (rows cols : Nat) (grad : Array α) :
    Except Fault (Array α) :=
  let sums := ds.addColumnSums rows (Array.replicate cols 0)
  window.updateRow grad 0 cols fun j x => x + sums.getD j 0

/-- Adds one row of a tile to the same row of the window. Both have to be there, the row
of the window with all its `cols` entries. -/
def addRow (window : Window) (ds : Tile α r c) (cols : Nat) (grad : Array α) (row : Nat) :
    Except Fault (Array α) := do
  let start ← window.rowWithin grad row cols
  let line ← ds.readRow row
  return updateRun grad start (min cols line.size) fun j x => x + line.getD j 0

/-- Adds the leading `rows` by `cols` block of score gradients to the gradient of a bias,
from the window's first entry on. -/
def accumulateGrad (kind : BiasKind) (window : Window) (ds : Tile α r c) (rows cols : Nat)
    (grad : Array α) : Except Fault (Array α) :=
  match kind with
  | .keyMask => addColumns window ds rows cols grad
  | .pairBias => (List.range rows).foldlM (addRow window ds cols) grad

/-- As `accumulateGrad`, but keeps the rows that were added before a fault. -/
def accumulateGradUntil (kind : BiasKind) (window : Window) (ds : Tile α r c) (rows cols : Nat)
    (grad : Array α) : Array α × Option Fault :=
  match kind with
  | .keyMask => runUntil (fun grad _ => addColumns window ds rows cols grad) grad [0]
  | .pairBias => runUntil (addRow window ds cols) grad (List.range rows)

theorem accumulateGrad_eq_settle (kind : BiasKind) (window : Window) (ds : Tile α r c)
    (rows cols : Nat) (grad : Array α) :
    kind.accumulateGrad window ds rows cols grad =
      settle (kind.accumulateGradUntil window ds rows cols grad) := by
  cases kind with
  | keyMask =>
    rw [accumulateGrad, accumulateGradUntil, ← foldlM_eq_settle]
    simp
  | pairBias => exact foldlM_eq_settle _ _ _

end BiasKind

end FusedAttention
