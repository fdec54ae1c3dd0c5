import FusedAttention.Bias
import FusedAttention.Shape.Operands

/-! The results of a backward pass by name, and how far two of them are apart. -/
namespace FusedAttention

/-- Something for each result. A bias gradient is there if it was wanted. -/
structure Outputs (τ : Type) where
  grads : Gradients τ
  delta : τ
  biasGrads : Biases (Option τ)
  deriving Inhabited

namespace Outputs

variable {τ υ : Type}

def map (f : τ → υ) (x : Outputs τ) : Outputs υ :=
  ⟨x.grads.map f, f x.delta, x.biasGrads.map (·.map f)⟩

/-- The results with their names, in a fixed order. -/
def named (x : Outputs τ) : List (String × τ) :=
  [("grad_q", x.grads.gradQ), ("grad_k", x.grads.gradK), ("grad_v", x.grads.gradV),
    ("delta", x.delta)] ++
    (x.biasGrads.keyMask.toList.map fun g => (BiasKind.keyMask.gradName, g)) ++
    x.biasGrads.pairBias.toList.map fun g => (BiasKind.pairBias.gradName, g)

/-- Largest absolute difference of two buffers over the length of the shorter one. A
difference that is not a number is passed over. -/
def largestDifference (a b : Array Float32) : Float32 :=
  Nat.fold (min a.size b.size) (fun i _ largest =>
    largerFloat largest (a[i] - b[i]).abs) 0

/-- Largest absolute difference of each result, under its name on the left. The results
are taken in order, up to the shorter list. -/
def maxAbsDiff (x y : Outputs (Array Float32)) : List (String × Float32) :=
  x.named.zipWith (fun (name, a) (_, b) => (name, largestDifference a b)) y.named

end Outputs

end FusedAttention
