import FusedAttention.Binary.Notation
import FusedAttention.Kernel.Workspace
import FusedAttention.Launch.Request
import FusedAttention.Settings

/-! The conditions on a launch. They are checked in a fixed order before anything is
written, and the first that does not hold is the reason of the refusal. -/
namespace FusedAttention

/-- Why a launch is refused. -/
inductive Refusal where
  | nonPositive (name : String)
  | headDimTooLarge (name : String) (value greatest : Nat)
  | misaligned (tensor what : String) (value alignment : Nat)
  | dropoutOutOfRange (prob : Float32)
  | workspace (required provided : Nat)
  | unsupportedTiles (tiles : TileSize)
  | tensorTooShort (tensor : String) (required size : Nat)
  | overlappingLayout (tensor : String)
  | shapeMismatch (tensor : String) (expected actual : List Nat)
  | groupSize (size batch : Nat)
  | biasGroups (groups batch : Nat)
  /-- A bias gradient is wanted of a bias that is not there. -/
  | orphanBiasGrad (name : String)

namespace Refusal

open Binary

def kind : Refusal → String
  | .nonPositive .. => "NonPositive"
  | .headDimTooLarge .. => "HeadDimTooLarge"
  | .misaligned .. => "Misaligned"
  | .dropoutOutOfRange .. => "DropoutOutOfRange"
  | .workspace .. => "Workspace"
  | .unsupportedTiles .. => "UnsupportedTiles"
  | .tensorTooShort .. => "TensorTooShort"
  | .overlappingLayout .. => "OverlappingLayout"
  | .shapeMismatch .. => "ShapeMismatch"
  | .groupSize .. => "GroupSize"
  | .biasGroups .. => "BiasGroups"
  | .orphanBiasGrad .. => "OrphanBiasGrad"

/-- Numbers in brackets with commas between them. -/
def bracketed (numbers : List Nat) : String :=
  "[" ++ ", ".intercalate (numbers.map toString) ++ "]"

def message : Refusal → String
  | .nonPositive name => s!"{name} must be positive"
  | .headDimTooLarge name value greatest =>
    s!"{name} = {value} exceeds the compiled maximum head dim {greatest}"
  | .misaligned tensor what value alignment =>
    s!"{tensor}: {what} = {value} is not a multiple of {alignment}"
  | .dropoutOutOfRange prob =>
    "dropout probability " ++ Notation.plain.text32 prob ++ " is outside [0, 1]"
  | .workspace required provided =>
    s!"workspace of {required} f32 elements required, got {provided}"
  | .unsupportedTiles ⟨blockI, blockJ, maxHeadDim⟩ =>
    s!"unsupported tile configuration: block_i = {blockI}, block_j = {blockJ}, " ++
      s!"max_head_dim = {maxHeadDim}"
  | .tensorTooShort tensor required size =>
    s!"{tensor} needs {required} elements for its layout but holds {size}"
  | .overlappingLayout tensor => s!"{tensor} layout maps distinct elements to the same address"
  | .shapeMismatch tensor expected actual =>
    s!"{tensor} has shape " ++ bracketed actual ++ ", expected " ++ bracketed expected
  | .groupSize size batch => s!"group size {size} does not divide the batch count {batch}"
  | .biasGroups groups batch =>
    s!"bias2 has {groups} groups, which does not divide the batch count {batch}"
  | .orphanBiasGrad name => s!"{name} was supplied without its bias"

/-- Named values as they stand in a diagnostic. -/
def named (fields : List (String × String)) : String :=
  " \x7b " ++ ", ".intercalate (fields.map fun (name, value) => name ++ ": " ++ value) ++ " \x7d"

def quoted (name : String) : String :=
  "\"" ++ name ++ "\""

/-- The kind of refusal with its values, as the command line reports it. -/
def diagnostic (refusal : Refusal) : String :=
  refusal.kind ++ match refusal with
  | .nonPositive name => named [("name", quoted name)]
  | .headDimTooLarge name value greatest =>
    named [("name", quoted name), ("value", toString value), ("max", toString greatest)]
  | .misaligned tensor what value alignment =>
    named [("tensor", quoted tensor), ("what", quoted what), ("value", toString value),
      ("alignment", toString alignment)]
  | .dropoutOutOfRange prob => "(" ++ Notation.diagnostic.text32 prob ++ ")"
  | .workspace required provided =>
    named [("required", toString required), ("provided", toString provided)]
  | .unsupportedTiles ⟨blockI, blockJ, maxHeadDim⟩ =>
    named [("block_i", toString blockI), ("block_j", toString blockJ),
      ("max_head_dim", toString maxHeadDim)]
  | .tensorTooShort tensor required size =>
    named [("tensor", quoted tensor), ("required", toString required), ("len", toString size)]
  | .overlappingLayout tensor => named [("tensor", quoted tensor)]
  | .shapeMismatch tensor expected actual =>
    named [("tensor", quoted tensor), ("expected", bracketed expected),
      ("actual", bracketed actual)]
  | .groupSize size batch => named [("group_size", toString size), ("batch", toString batch)]
  | .biasGroups groups batch => named [("groups", toString groups), ("batch", toString batch)]
  | .orphanBiasGrad name => "(" ++ quoted name ++ ")"

end Refusal

/-- Extents of the query and key tiles that there are kernels for. -/
def supportedTiles : List (Nat × Nat) :=
  [(8, 8), (16, 16), (32, 32), (64, 32), (64, 64)]

/-- Largest head dimensions that there are kernels for. -/
def supportedHeadDims : List Nat :=
  [32, 64, 128]

def Settings.tiles (settings : Settings) : TileSize :=
  ⟨settings.blockI, settings.blockJ, settings.maxHeadDim⟩

def TileSize.isSupported (t : TileSize) : Bool :=
  supportedTiles.contains (t.blockI, t.blockJ) && supportedHeadDims.contains t.maxHeadDim

namespace Check

/-- Refuses unless the condition holds. -/
def require (holds : Bool) (refusal : Refusal) : Except Refusal Unit :=
  if holds then .ok () else .error refusal

def tiles (t : TileSize) : Except Refusal Unit :=
  require t.isSupported (.unsupportedTiles t)

/-- Every size is positive, both head dimensions fit the tiles, and the groups are full. -/
def shape (maxHeadDim : Nat) (s : Shape) : Except Refusal Unit := do
  s.named.forM fun (name, value) => require (value ≠ 0) (.nonPositive name)
  [("head_dim", s.headDim), ("head_dim_value", s.headDimValue)].forM fun (name, value) =>
    require (value ≤ maxHeadDim) (.headDimTooLarge name value maxHeadDim)
  require (s.batch % s.groupSize = 0) (.groupSize s.groupSize s.batch)

/-- The strides by which a tensor is addressed are whole lines. -/
def alignment (tensor : String) (l : Layout) (s : Shape) : Except Refusal Unit :=
  let strides := [("base offset", l.offset), ("row stride", l.rowStride)] ++
    (if 1 < s.heads then [("head stride", l.headStride)] else []) ++
    (if 1 < s.batch then [("batch stride", l.batchStride)] else [])
  strides.forM fun (what, value) =>
    require (value % lineSize = 0) (.misaligned tensor what value lineSize)

def size (tensor : String) (required size : Nat) : Except Refusal Unit :=
  require (required ≤ size) (.tensorTooShort tensor required size)

/-- A tensor that is read holds every element of its layout. -/
def input (s : Shape) (aligned : Bool) (tensor : String) (l : Layout) (extents : Nat × Nat)
    (elements : Nat) : Except Refusal Unit := do
  if aligned then alignment tensor l s
  size tensor (l.requiredLen s.batch extents.1 s.heads extents.2) elements

/-- A gradient holds every element of its layout, each at an address of its own. -/
def gradient (s : Shape) (tensor : String) (l : Layout) (extents : Nat × Nat) (elements : Nat) :
    Except Refusal Unit := do
  size tensor (l.requiredLen s.batch extents.1 s.heads extents.2) elements
  require (l.isInjective s.batch extents.1 s.heads extents.2) (.overlappingLayout tensor)

def logSumExp (s : Shape) (l : LseLayout) (elements : Nat) : Except Refusal Unit := do
  [("head stride", l.headStride), ("batch stride", l.batchStride)].forM fun (what, value) =>
    require (value % 8 = 0) (.misaligned "lse" what value 8)
  size "lse" (l.unitOffset ⟨s.batch - 1, s.heads - 1⟩ + s.numQueries) elements

/-- A bias that is supplied holds all its entries. -/
def bias (s : Shape) (kind : BiasKind) (elements : Option Nat) : Except Refusal Unit :=
  match elements with
  | some elements => size kind.name (kind.size s) elements
  | none => .ok ()

/-- A bias gradient that is wanted holds all its entries and has its bias. -/
def biasGrad (s : Shape) (kind : BiasKind) (supplied : Bool) (elements : Option Nat) :
    Except Refusal Unit :=
  match elements with
  | some elements =>
    if supplied then size kind.gradName (kind.size s) elements
    else .error (.orphanBiasGrad kind.gradName)
  | none => .ok ()

/-- A probability lies between zero and one. -/
def dropout (prob : Float32) : Except Refusal Unit :=
  require (0 ≤ prob && prob ≤ 1) (.dropoutOutOfRange prob)

end Check

/-- The plan of a launch on elements of type `ε`. -/
def Settings.plan (settings : Settings) (ε : Type) {α : Type} [Element ε α] : Plan :=
  .of (Element.dtype ε) settings.tiles

/-- Refuses a launch that the kernel is not made for. -/
def Request.check {α ε : Type} [Element ε α] (request : Request α ε) (settings : Settings)
    (memory : Memory α ε) : Except Refusal Unit := do
  let s := request.shape
  Check.tiles settings.tiles
  Check.shape settings.maxHeadDim s
  let layouts := request.inputLayouts
  let extents := s.operandExtents
  Check.input s true "q" layouts.q extents.q request.inputs.q.size
  Check.input s true "k" layouts.k extents.k request.inputs.k.size
  Check.input s true "v" layouts.v extents.v request.inputs.v.size
  Check.input s false "o" layouts.o extents.o request.inputs.o.size
  Check.input s false "d_o" layouts.dO extents.dO request.inputs.dO.size
  let layouts := request.gradLayouts
  let extents := s.gradientExtents
  Check.gradient s "grad_q" layouts.gradQ extents.gradQ memory.grads.gradQ.size
  Check.gradient s "grad_k" layouts.gradK extents.gradK memory.grads.gradK.size
  Check.gradient s "grad_v" layouts.gradV extents.gradV memory.grads.gradV.size
  Check.logSumExp s request.lseLayout request.lse.size
  Check.size "delta" (s.units * s.numQueries) memory.delta.size
  Check.bias s .keyMask (request.biases.keyMask.map (·.size))
  Check.bias s .pairBias (request.biases.pairBias.map (·.size))
  Check.biasGrad s .keyMask request.biases.keyMask.isSome (memory.biasGrads.keyMask.map (·.size))
  Check.biasGrad s .pairBias request.biases.pairBias.isSome
    (memory.biasGrads.pairBias.map (·.size))
  Check.dropout settings.dropoutProb
  let required := ((settings.plan ε).workspaceLayout s).elements
  let provided := memory.workspace.elim 0 (·.size)
  Check.require (required ≤ provided) (.workspace required provided)

end FusedAttention
