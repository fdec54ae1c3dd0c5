import FusedAttention.Dense.Untiled
import FusedAttention.Random.Uniform

/-! Random problems from a seed, for timing the kernel and checking it against the formulas
without tiles. -/
namespace FusedAttention

/-- The tensors that are drawn for a shape, rounded to the element type that the kernel
runs in. -/
structure Problem where
  shape : Shape
  q : Tensor Float32
  k : Tensor Float32
  v : Tensor Float32
  dO : Tensor Float32
  biases : Biases (Option (Tensor Float32))

/-- Rounds a number to the element type `ε`. -/
def quantize (ε : Type) [Element ε Float32] (x : Float32) : Float32 :=
  Element.widen (Element.round x : ε)

namespace Problem

/-- The next tensor of a reader, with numbers of `[low, high)`. -/
def draw (ε : Type) [Element ε Float32] (dims : List Nat) (low high : Float32)
    (reader : Random.Reader) : Tensor Float32 × Random.Reader :=
  let (values, reader) := Random.drawFloats low high (extent dims) reader
  (.ofFn dims fun p => quantize ε (values.getD p 0), reader)

/-- The tensors of a shape in the order Q, K, V, dO, key mask, pair bias. -/
def random (ε : Type) [Element ε Float32] (s : Shape) (mode : BiasMode) (seed : UInt64) :
    Except Fault Problem := do
  let reader := Random.Reader.start (Random.stream12 seed)
  let (q, reader) := draw ε [s.batch, s.numQueries, s.heads, s.headDim] (-1) 1 reader
  let (k, reader) := draw ε [s.batch, s.numKeys, s.heads, s.headDim] (-1) 1 reader
  let (v, reader) := draw ε [s.batch, s.numKeys, s.heads, s.headDimValue] (-1) 1 reader
  let (dO, reader) := draw ε [s.batch, s.numQueries, s.heads, s.headDimValue] (-1) 1 reader
  let (keyMask, reader) :=
    if mode.has .keyMask then
      let (t, reader) := draw ε (BiasKind.keyMask.dims s) (-1) 0 reader
      (some t, reader)
    else (none, reader)
  if mode.has .pairBias then
    BiasKind.pairBias.check s
    let (t, _) := draw ε (BiasKind.pairBias.dims s) (-0.5) 0.5 reader
    return ⟨s, q, k, v, dO, ⟨keyMask, some t⟩⟩
  return ⟨s, q, k, v, dO, ⟨keyMask, none⟩⟩

/-- The tensors of a backward pass, with O and the log-sum-exp from the forward pass. O is
rounded like the rest, and has the dimensions of the shape that was drawn for. -/
def inputs (ε : Type) [Element ε Float32] (problem : Problem) (settings : Settings)
    (biasGrads : Bool) : Except Fault (ForwardTensors Float32) := do
  let ⟨s, q, k, v, dO, biases⟩ := problem
  let (o, lse) ← Untiled.forward q k v biases settings
  let o ← Tensor.ofArray? [s.batch, s.numQueries, s.heads, s.headDimValue]
    (o.data.map (quantize ε))
  return {
    operands := { q, k, v, o, dO }
    lse
    biases
    biasGrads }

end Problem

/-- Kernel and untiled formulas on the same random problem in the element type `ε`. -/
def compareIn (ε : Type) [Element ε Float32] (s : Shape) (mode : BiasMode) (seed : UInt64)
    (settings : Settings) (biasGrads : Bool) :
    Except Failure (Outputs (Tensor Float32) × Outputs (Tensor Float32)) := do
  let problem ← (Problem.random ε s mode seed).mapError .fault
  let inputs ← (problem.inputs ε settings biasGrads).mapError .fault
  let (tested, _) ← inputs.backward settings
  let expected ← Untiled.backward inputs settings
  return (tested, expected)

/-- `compareIn` for the element type of the settings. -/
def compare (s : Shape) (mode : BiasMode) (seed : UInt64) (settings : Settings) (biasGrads : Bool) :
    Except Failure (Outputs (Tensor Float32) × Outputs (Tensor Float32)) :=
  match settings.dtype with
  | .f32 => compareIn Float32 s mode seed settings biasGrads
  | .f16 => compareIn Binary16 s mode seed settings biasGrads
  | .bf16 => compareIn BFloat16 s mode seed settings biasGrads

/-- How far two results are apart, each under its name. -/
def differences (tested expected : Outputs (Tensor Float32)) : List (String × Float32) :=
  (tested.map (·.data)).maxAbsDiff (expected.map (·.data))

end FusedAttention
