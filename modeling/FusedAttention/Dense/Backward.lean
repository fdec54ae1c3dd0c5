import FusedAttention.Dense.Outputs
import FusedAttention.Dense.Padding
import FusedAttention.Dense.Tensor
import FusedAttention.Launch

/-! The backward pass on dense tensors: shapes are read off and checked, rows are padded to
whole lines, and the gradients come back dense. -/
namespace FusedAttention

/-- The forward tensors, `[batch, rows, heads, cols]`, with the log-sum-exp
`[batch, heads, queries]`, the biases that took part, and whether their gradients are
wanted. -/
structure ForwardTensors (α : Type) where
  operands : Operands (Tensor α)
  lse : Tensor α
  biases : Biases (Option (Tensor α))
  biasGrads : Bool

/-- Batches that share one pair bias when there are `groups` of them. -/
def pairBiasGroupSize (batch groups : Nat) : Except Refusal Nat :=
  if groups = 0 ∨ batch % groups ≠ 0 then .error (.biasGroups groups batch)
  else .ok (max (batch / groups) 1)

namespace ForwardTensors

variable {α ε : Type}

/-- Refuses a tensor whose dimensions are not the expected ones. -/
def expectDims (name : String) (expected : List Nat) (t : Tensor α) : Except Refusal Unit :=
  Check.require (expected = t.dims) (.shapeMismatch name expected t.dims)

/-- The shape that the tensors imply, with every tensor checked against it. -/
def inferShape (x : ForwardTensors α) : Except Refusal Shape := do
  let q := x.operands.q
  let batch := q.dim 0
  let groupSize ← match x.biases.pairBias with
    | some bias => pairBiasGroupSize batch (bias.dim 0)
    | none => .ok 1
  let s : Shape :=
    { batch
      heads := q.dim 2
      numQueries := q.dim 1
      numKeys := x.operands.k.dim 1
      headDim := q.dim 3
      headDimValue := x.operands.v.dim 3
      groupSize }
  expectDims "k" [s.batch, s.numKeys, s.heads, s.headDim] x.operands.k
  expectDims "v" [s.batch, s.numKeys, s.heads, s.headDimValue] x.operands.v
  expectDims "o" [s.batch, s.numQueries, s.heads, s.headDimValue] x.operands.o
  expectDims "d_o" [s.batch, s.numQueries, s.heads, s.headDimValue] x.operands.dO
  expectDims "lse" [s.batch, s.heads, s.numQueries] x.lse
  [BiasKind.keyMask, .pairBias].forM fun kind =>
    match x.biases.get kind with
    | some bias => expectDims kind.name (kind.dims s) bias
    | none => .ok ()
  return s

end ForwardTensors

variable {α : Type} [Scalar α]

namespace ForwardTensors

/-- The launch that computes the gradients of dense tensors in the element type `ε`. -/
def request (ε : Type) [Element ε α] (x : ForwardTensors α) (s : Shape) :
    Except Fault (Request α ε) := do
  let rounded (t : Tensor α) : Array ε := t.data.map Element.round
  let padded (t : Tensor α) (cols : Nat) : Except Fault (Array ε) :=
    padRows (Element.zero (α := α)) (rounded t) cols (alignUp cols lineSize)
  let q ← padded x.operands.q s.headDim
  let k ← padded x.operands.k s.headDim
  let v ← padded x.operands.v s.headDimValue
  let o ← padded x.operands.o s.headDimValue
  let dO ← padded x.operands.dO s.headDimValue
  let lseLayout : LseLayout := .padded s.heads s.numQueries
  let lse ← padLse s lseLayout x.lse.data
  return {
    shape := s
    inputs := { q, k, v, o, dO }
    inputLayouts := s.alignedLayouts
    lse
    lseLayout
    gradLayouts := s.alignedGradLayouts
    biases := x.biases.map (·.map rounded) }

/-- Memory for the launch: zeros throughout, with a buffer for the gradient of every bias
if these are wanted. -/
def memory {ε : Type} [Element ε α] (x : ForwardTensors α) (request : Request α ε)
    (workspace : WorkspaceLayout) : Memory α ε :=
  let s := request.shape
  let zeros (run : Array ε) : Array ε := Array.replicate run.size (Element.zero (α := α))
  let biasGrad (kind : BiasKind) : Option (Array α) :=
    if x.biasGrads && (x.biases.get kind).isSome then some (Array.replicate (kind.size s) 0)
    else none
  { grads :=
      { gradQ := zeros request.inputs.q
        gradK := zeros request.inputs.k
        gradV := zeros request.inputs.v }
    delta := Array.replicate (s.units * s.numQueries) 0
    biasGrads := ⟨biasGrad .keyMask, biasGrad .pairBias⟩
    workspace :=
      if workspace.elements = 0 then none else some (Array.replicate workspace.elements 0) }

/-- The results of a launch on padded tensors as dense ones. -/
def outputs {ε : Type} [Element ε α] (s : Shape) (memory : Memory α ε) :
    Except Fault (Outputs (Tensor α)) := do
  let dense (run : Array ε) (rows cols : Nat) : Except Fault (Tensor α) := do
    let values ← stripRows run cols (alignUp cols lineSize)
    Tensor.ofArray? [s.batch, rows, s.heads, cols] (values.map Element.widen)
  let gradQ ← dense memory.grads.gradQ s.numQueries s.headDim
  let gradK ← dense memory.grads.gradK s.numKeys s.headDim
  let gradV ← dense memory.grads.gradV s.numKeys s.headDimValue
  let delta ← Tensor.ofArray? [s.batch, s.heads, s.numQueries] memory.delta
  let biasGrads ← memory.biasGrads.mapM fun kind grad => grad.mapM (Tensor.ofArray? (kind.dims s))
  return { grads := { gradQ, gradK, gradV }, delta, biasGrads }

/-- All gradients in the element type `ε`, with every key tile attending to every query. The
workspace is that of the element type of the settings. -/
def backwardIn (ε : Type) [Element ε α] (x : ForwardTensors α) (settings : Settings) :
    Except Failure (Outputs (Tensor α) × Report) := do
  let s ← x.inferShape.mapError .refused
  let request ← (x.request ε s).mapError .fault
  let plan := Plan.of settings.dtype settings.tiles
  let workspace ← (plan.workspaceLayout? s).mapError .fault
  let (report, memory) := request.launch settings fullAttention (x.memory request workspace)
  let report ← report
  let outputs ← (outputs s memory).mapError .fault
  return (outputs, report)

/-- All gradients in the element type of the settings. -/
def backward (x : ForwardTensors Float32) (settings : Settings) :
    Except Failure (Outputs (Tensor Float32) × Report) :=
  match settings.dtype with
  | .f32 => x.backwardIn Float32 settings
  | .f16 => x.backwardIn Binary16 settings
  | .bf16 => x.backwardIn BFloat16 settings

end ForwardTensors

end FusedAttention
