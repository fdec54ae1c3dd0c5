import FusedAttention.Bias
import FusedAttention.Shape.Operands

/-! What a launch is given: the tensors it reads and the memory it writes. -/
namespace FusedAttention

/-- The tensors that a launch reads, and how all its tensors are laid out. A bias that is
supplied takes part in the scores. -/
structure Request (α ε : Type) where
  shape : Shape
  inputs : Operands (Array ε)
  inputLayouts : Operands Layout
  lse : Array α
  lseLayout : LseLayout
  gradLayouts : Gradients Layout
  biases : Biases (Option (Array ε))
  deriving Inhabited

/-- The memory that a launch writes. A bias gradient is computed where there is a
buffer for it, and adds to what the buffer holds. -/
structure Memory (α ε : Type) where
  grads : Gradients (Array ε)
  delta : Array α
  biasGrads : Biases (Option (Array α))
  workspace : Option (Array α)
  deriving Inhabited

end FusedAttention
