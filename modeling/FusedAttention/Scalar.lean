/-! The arithmetic the kernel computes in. Every stage is written over these
operations alone, so the same definitions run on 32-bit floats and are read over
a commutative ring or over uninterpreted symbols. -/
namespace FusedAttention

/-- The operations of the accumulator arithmetic. Nothing is assumed about them;
`infinity` is the value that pads log-sum-exp rows, and `ofFloat` reads a
setting of the launch (a scale, a keep factor) as a number of the arithmetic. -/
class Scalar (α : Type) extends Zero α, One α, Add α, Sub α, Mul α where
  infinity : α
  exp : α → α
  isZero : α → Bool
  ofFloat : Float32 → α

/-- Arithmetic with the further operations that the untiled forward pass uses. -/
class ScalarLog (α : Type) extends Scalar α where
  log : α → α
  max : α → α → α

/-- The larger of two floats; a NaN on either side loses. -/
def largerFloat (x y : Float32) : Float32 :=
  if x < y || x != x then y else x

instance : Scalar Float32 where
  zero := 0
  one := 1
  infinity := 1 / 0
  exp := Float32.exp
  isZero x := x == 0
  ofFloat := id

instance : ScalarLog Float32 where
  log := Float32.log
  max := largerFloat

end FusedAttention
