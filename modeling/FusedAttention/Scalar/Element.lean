import FusedAttention.Binary.Format
import FusedAttention.Scalar

/-! Element types of the tensors. Tiles always hold the wide arithmetic; a narrow
element is widened when it is loaded and rounded when it is stored. -/
namespace FusedAttention

/-- Names of the element types. -/
inductive DType where
  | f32
  | f16
  | bf16
  deriving DecidableEq, Repr, Inhabited

namespace DType

def all : List DType := [.f32, .f16, .bf16]

def name : DType → String
  | .f32 => "f32"
  | .f16 => "f16"
  | .bf16 => "bf16"

def ofName? (name : String) : Option DType :=
  all.find? (·.name == name)

def sizeInBytes : DType → Nat
  | .f32 => 4
  | .f16 | .bf16 => 2

/-- A half type takes at most two bytes. -/
def isHalf (dtype : DType) : Bool :=
  dtype.sizeInBytes ≤ 2

end DType

/-- An element type `ε` of tensors that are computed on in `α`. -/
class Element (ε : Type) (α : outParam Type) where
  dtype : DType
  widen : ε → α
  round : α → ε
  zero : ε

instance : Element Float32 Float32 where
  dtype := .f32
  widen := id
  round := id
  zero := 0

/-- A number with 11 significant bits and a 5-bit exponent field. -/
structure Binary16 where
  bits : UInt16
  deriving DecidableEq, Repr

/-- The leading half of a 32-bit float. -/
structure BFloat16 where
  bits : UInt16
  deriving DecidableEq, Repr

open Binary in
/-- Exact number of a 32-bit float. -/
def datumOfFloat (x : Float32) : Datum :=
  Format.binary32.decode x.toBits.toNat

namespace Binary16

def toFloat (x : Binary16) : Float32 :=
  Float32.ofBits (UInt32.ofNat (Binary.Format.binary32.encode
    (Binary.Format.binary16.decode x.bits.toNat)))

def ofFloat (x : Float32) : Binary16 :=
  ⟨UInt16.ofNat (Binary.Format.binary16.encode (datumOfFloat x))⟩

end Binary16

namespace BFloat16

def toFloat (x : BFloat16) : Float32 :=
  Float32.ofBits (x.bits.toUInt32 <<< 16)

def ofFloat (x : Float32) : BFloat16 :=
  ⟨UInt16.ofNat (Binary.Format.bfloat16.encode (datumOfFloat x))⟩

end BFloat16

instance : Element Binary16 Float32 where
  dtype := .f16
  widen := Binary16.toFloat
  round := Binary16.ofFloat
  zero := ⟨0⟩

instance : Element BFloat16 Float32 where
  dtype := .bf16
  widen := BFloat16.toFloat
  round := BFloat16.ofFloat
  zero := ⟨0⟩

end FusedAttention
