import Mathlib
import FusedAttention.Dense.Padding
import FusedAttention.Proofs.Acceptance
import FusedAttention.Proofs.ExactSums

/-! The gradients by the formulas over all queries and keys of a unit, without tiles, and the sums of
the kernel that they describe. Indices are `i` for queries, `j` for keys and `c` for columns. -/
namespace FusedAttention

open Finset

variable {α ε : Type} [ExactScalar α] [Element ε α]

namespace Formula

variable (request : Request α ε) (settings : Settings) (attends : Nat → Nat → Bool) (u : UnitCoord)

def scale : α := Scalar.ofFloat (settings.resolvedScale request.shape.headDim)

/-- A number of a tensor that is read, by unit, row and column. -/
def number (layout : Layout) (data : Array ε) (row c : Nat) : α :=
  Tile.widenAt data (layout.address u row c)

def q (i c : Nat) : α := number u request.inputLayouts.q request.inputs.q i c
def k (j c : Nat) : α := number u request.inputLayouts.k request.inputs.k j c
def v (j c : Nat) : α := number u request.inputLayouts.v request.inputs.v j c
def o (i c : Nat) : α := number u request.inputLayouts.o request.inputs.o i c
def dO (i c : Nat) : α := number u request.inputLayouts.dO request.inputs.dO i c

def lse (i : Nat) : α := request.lse[request.lseLayout.unitOffset u + i]?.getD 0

/-- What a bias adds to a score, nothing if there is no such bias. -/
def bias (kind : BiasKind) (i j : Nat) : α :=
  (request.biases.get kind).elim 0 fun data => Tile.widenAt data (kind.address request.shape u i j)

/-- The factor of dropout as the kernel reads it, one without dropout. -/
def keep (i j : Nat) : α :=
  (settings.dropout.mask request.shape u settings.blockJ).elim 1 fun mask => mask i j

def score (i j : Nat) : α :=
  scale request settings * ∑ c ∈ range request.shape.headDim, q request u i c * k request u j c +
    bias request u .keyMask i j + bias request u .pairBias i j

/-- The probability of a key for a query, computed again from the log-sum-exp. -/
def prob (i j : Nat) : α :=
  if attends i j then Scalar.exp (score request settings u i j - lse request u i) else 0

/-- Delta of a query. -/
def delta (i : Nat) : α := ∑ c ∈ range request.shape.headDimValue, o request u i c * dO request u i c

/-- The gradient of a score before the scale is applied. -/
def gradScore (i j : Nat) : α :=
  prob request settings attends u i j * (keep request settings u i j *
    (∑ c ∈ range request.shape.headDimValue, dO request u i c * v request u j c) - delta request u i)

def gradQ (i c : Nat) : α :=
  scale request settings *
    ∑ j ∈ range request.shape.numKeys, gradScore request settings attends u i j * k request u j c

def gradK (j c : Nat) : α :=
  scale request settings *
    ∑ i ∈ range request.shape.numQueries, gradScore request settings attends u i j * q request u i c

def gradV (j c : Nat) : α :=
  ∑ i ∈ range request.shape.numQueries,
    prob request settings attends u i j * keep request settings u i j * dO request u i c

/-- The gradient of a key tile's tensors, of K or of V. -/
def keyGrad (side : KeySide) (j c : Nat) : α :=
  match side with
  | .keys => gradK request settings attends u j c
  | .values => gradV request settings attends u j c

end Formula

namespace Kernel

/-- Whether the tile of a key attends to the tile of a query. -/
def attends (kernel : Kernel α ε) (i j : Nat) : Bool :=
  kernel.firstQuery (tileOf kernel.tiles.blockJ j) ≤ tileOf kernel.tiles.blockI i

end Kernel

/-! ### The numbers of a unit -/

namespace Formula

variable {request : Request α ε} {settings : Settings} {policy : QueryStart} {u : UnitCoord}

/-- Delta as it is computed over lanes. -/
theorem delta_eq (hReads : (request.kernel settings policy).Reads u) {i : Nat}
    (hi : i < request.shape.numQueries) :
    (request.kernel settings policy).delta u i = delta request u i :=
  Lanes.laneDot_extract (hReads.o i hi) (hReads.dO i hi) _

/-- The biases are added one after the other, the key mask first. -/
theorem foldl_biasValues (request : Request α ε) (u : UnitCoord) (i j : Nat) (y : α) :
    (request.biasValues u).foldl (fun score bias => score + bias i j) y =
      y + bias request u .keyMask i j + bias request u .pairBias i j := by
  unfold Request.biasValues bias
  cases hMask : request.biases.get .keyMask <;> cases hPair : request.biases.get .pairBias <;>
    simp [hMask, hPair]

theorem prob_eq (i j : Nat) : ((request.kernel settings policy).unitValues u).prob i j =
    Scalar.exp (score request settings u i j - lse request u i) := by
  have hProduct : (0 + Tile.dot request.shape.headDim (k request u j) (q request u i)) *
      scale request settings =
        scale request settings * ∑ c ∈ range request.shape.headDim, q request u i c * k request u j c := by
    rw [zero_add, Tile.dot_eq, mul_comm]
    exact congrArg _ (sum_congr rfl fun c _ => mul_comm _ _)
  have hScore := foldl_biasValues request u i j
    ((0 + Tile.dot request.shape.headDim (k request u j) (q request u i)) * scale request settings)
  rw [hProduct] at hScore
  rw [score, ← hScore, ← hProduct]
  rfl

theorem masked_eq (i j : Nat) (y : α) :
    ((request.kernel settings policy).unitValues u).masked i j y =
      y * keep request settings u i j := by
  have hMask : ((request.kernel settings policy).unitValues u).mask =
      settings.dropout.mask request.shape u settings.blockJ := rfl
  unfold UnitValues.masked keep
  rw [hMask]
  cases (settings.dropout.mask request.shape u settings.blockJ : Option (Nat → Nat → α)) with
  | none => exact (mul_one y).symm
  | some mask => rfl

theorem weight_eq {i j : Nat} (hAttends : (request.kernel settings policy).attends i j = true) :
    ((request.kernel settings policy).unitValues u).weight i j =
      prob request settings (request.kernel settings policy).attends u i j *
        keep request settings u i j := by
  rw [UnitValues.weight, masked_eq, prob_eq, prob, if_pos hAttends]

theorem gradScore_eq (hReads : (request.kernel settings policy).Reads u) {i j : Nat}
    (hi : i < request.shape.numQueries)
    (hAttends : (request.kernel settings policy).attends i j = true) :
    ((request.kernel settings policy).unitValues u).gradScore i j =
      gradScore request settings (request.kernel settings policy).attends u i j := by
  rw [UnitValues.gradScore, masked_eq, prob_eq, gradScore, prob, if_pos hAttends, zero_add,
    Tile.dot_eq, mul_comm (keep request settings u i j), ← delta_eq hReads hi]
  rfl

end Formula

/-! ### Integers -/

/-- A request on integers in which O and the log-sum-exp are zero and all other numbers of the tensors
are one. Both biases are there, and zero. -/
def Request.ones (s : Shape) : Request Int Int :=
  let held (l : Layout) (rows cols : Nat) (x : Int) : Array Int :=
    .replicate (l.requiredLen s.batch rows s.heads cols) x
  let layouts := s.alignedLayouts
  { shape := s
    inputs :=
      { q := held layouts.q s.numQueries s.headDim 1
        k := held layouts.k s.numKeys s.headDim 1
        v := held layouts.v s.numKeys s.headDimValue 1
        o := held layouts.o s.numQueries s.headDimValue 0
        dO := held layouts.dO s.numQueries s.headDimValue 1 }
    inputLayouts := layouts
    lse := .replicate (s.batch * (LseLayout.padded s.heads s.numQueries).batchStride) 0
    lseLayout := .padded s.heads s.numQueries
    gradLayouts := s.alignedGradLayouts
    biases := ⟨some (.replicate (BiasKind.keyMask.size s) 0),
      some (.replicate (BiasKind.pairBias.size s) 0)⟩ }

/-- Memory for such a request that holds one number everywhere, with both bias gradients and without
a workspace. -/
def Memory.filled (s : Shape) (x : Int) : Memory Int Int :=
  let held (l : Layout) (rows cols : Nat) : Array Int :=
    .replicate (l.requiredLen s.batch rows s.heads cols) x
  { grads :=
      { gradQ := held s.alignedGradLayouts.gradQ s.numQueries s.headDim
        gradK := held s.alignedGradLayouts.gradK s.numKeys s.headDim
        gradV := held s.alignedGradLayouts.gradV s.numKeys s.headDimValue }
    delta := .replicate (s.units * s.numQueries) x
    biasGrads := ⟨some (.replicate (BiasKind.keyMask.size s) x),
      some (.replicate (BiasKind.pairBias.size s) x)⟩
    workspace := none }

/-- One unit with two query tiles and two key tiles of the smallest size, the second of each with one
row. -/
def Shape.twoTiles : Shape :=
  ⟨1, 1, 9, 9, 1, 1, 1⟩

def Settings.smallTiles : Settings :=
  { blockI := 8, blockJ := 8, maxHeadDim := 32 }

theorem Settings.sumsPass_smallTiles : Settings.smallTiles.SumsPass .twoTiles := by
  decide

theorem Request.check_ones :
    (Request.ones .twoTiles).check .smallTiles (.filled .twoTiles 5) = .ok () :=
  (Check.eq_ok_iff_isOk _).mpr (by decide +kernel)

end FusedAttention
