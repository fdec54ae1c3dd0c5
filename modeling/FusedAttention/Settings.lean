import FusedAttention.Fault
import FusedAttention.Scalar.Element
import FusedAttention.Text.Json

/-! Settings of a backward launch, their defaults and their written form. -/
namespace FusedAttention

/-- Launch settings. `scale` defaults to the inverse square root of the head
dimension, and `dropoutOffset` is the base position of the dropout stream, which the
caller advances between steps. `overflow` is no field of their written form: it comes
with the build. -/
structure Settings where
  blockI : Nat := 64
  blockJ : Nat := 64
  maxHeadDim : Nat := 128
  scale : Option Float32 := none
  dropoutProb : Float32 := 0
  dropoutSeed : UInt64 := 0
  dropoutOffset : UInt64 := 0
  dtype : DType := .f32
  overflow : Overflow := .checked
  deriving Inhabited

namespace Settings

/-- The scale given, or one over the square root of the head dimension. -/
def resolvedScale (settings : Settings) (headDim : Nat) : Float32 :=
  settings.scale.getD (1 / headDim.toUInt64.toFloat32.sqrt)

open Text

def toJson (settings : Settings) : Json :=
  .object [
    ("block_i", .nat settings.blockI),
    ("block_j", .nat settings.blockJ),
    ("max_head_dim", .nat settings.maxHeadDim),
    ("scale", settings.scale.elim .null .float32),
    ("dropout_prob", .float32 settings.dropoutProb),
    ("dropout_seed", .nat settings.dropoutSeed.toNat),
    ("dropout_offset", .nat settings.dropoutOffset.toNat),
    ("dtype", .string settings.dtype.name)]

/-- The settings as a document, a field a line. -/
def text (settings : Settings) : String :=
  settings.toJson.pretty

def readDType? (json : Json) : Option DType :=
  json.asName?.bind DType.ofName?

/-- A missing scale is `null`, which stands for the default. -/
def readScale? : Json → Option (Option Float32)
  | .null => some none
  | json => json.asFloat32?.map some

def ofValues? (blockI blockJ maxHeadDim scale prob seed offset dtype : Json) : Option Settings := do
  return {
    blockI := ← blockI.asUnsigned?
    blockJ := ← blockJ.asUnsigned?
    maxHeadDim := ← maxHeadDim.asUnsigned?
    scale := ← readScale? scale
    dropoutProb := ← prob.asFloat32?
    dropoutSeed := UInt64.ofNat (← seed.asUnsigned?)
    dropoutOffset := UInt64.ofNat (← offset.asUnsigned?)
    dtype := ← readDType? dtype }

/-- The value of a field that occurs once. -/
def only? (fields : List (String × Json)) (key : String) : Option Json :=
  match fields.filter (·.1 == key) with
  | [(_, value)] => some value
  | _ => none

/-- The value of a field that occurs at most once, `null` where it is missing. -/
def optional? (fields : List (String × Json)) (key : String) : Option Json :=
  match fields.filter (·.1 == key) with
  | [] => some .null
  | [(_, value)] => some value
  | _ => none

/-- Settings are an object with every field but the scale, in any order and among
others, or the list of the values in the order of the fields. -/
def ofJson? : Json → Option Settings
  | .object fields => do
    ofValues? (← only? fields "block_i") (← only? fields "block_j")
      (← only? fields "max_head_dim") (← optional? fields "scale")
      (← only? fields "dropout_prob") (← only? fields "dropout_seed")
      (← only? fields "dropout_offset") (← only? fields "dtype")
  | .array [blockI, blockJ, maxHeadDim, scale, prob, seed, offset, dtype] =>
    ofValues? blockI blockJ maxHeadDim scale prob seed offset dtype
  | _ => none

def ofText? (text : String) : Option Settings :=
  (Json.parse? text).bind ofJson?

end Settings

end FusedAttention
