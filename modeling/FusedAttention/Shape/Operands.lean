import FusedAttention.Shape.Layout

/-! The tensors of a backward pass by name: the five it reads and the three gradients
it writes, each a bundle over whatever describes a tensor. -/
namespace FusedAttention

/-- Something for each tensor that the backward pass reads. -/
structure Operands (τ : Type) where
  q : τ
  k : τ
  v : τ
  o : τ
  dO : τ
  deriving Repr, Inhabited

/-- Something for each gradient. -/
structure Gradients (τ : Type) where
  gradQ : τ
  gradK : τ
  gradV : τ
  deriving Repr, Inhabited

namespace Operands

variable {τ υ : Type}

/-- Applies `f` to every tensor, in the order of the fields. -/
def mapM {m : Type → Type} [Monad m] (f : τ → m υ) (x : Operands τ) : m (Operands υ) := do
  let q ← f x.q
  let k ← f x.k
  let v ← f x.v
  let o ← f x.o
  let dO ← f x.dO
  return { q, k, v, o, dO }

def map (f : τ → υ) (x : Operands τ) : Operands υ :=
  { q := f x.q, k := f x.k, v := f x.v, o := f x.o, dO := f x.dO }

def toList (x : Operands τ) : List τ :=
  [x.q, x.k, x.v, x.o, x.dO]

def ofList? : List τ → Option (Operands τ)
  | [q, k, v, o, dO] => some { q, k, v, o, dO }
  | _ => none

end Operands

namespace Gradients

variable {τ υ : Type}

/-- Applies `f` to every gradient, in the order of the fields. -/
def mapM {m : Type → Type} [Monad m] (f : τ → m υ) (x : Gradients τ) : m (Gradients υ) := do
  let gradQ ← f x.gradQ
  let gradK ← f x.gradK
  let gradV ← f x.gradV
  return { gradQ, gradK, gradV }

def map (f : τ → υ) (x : Gradients τ) : Gradients υ :=
  { gradQ := f x.gradQ, gradK := f x.gradK, gradV := f x.gradV }

def toList (x : Gradients τ) : List τ :=
  [x.gradQ, x.gradK, x.gradV]

def ofList? : List τ → Option (Gradients τ)
  | [gradQ, gradK, gradV] => some { gradQ, gradK, gradV }
  | _ => none

end Gradients

/-- Rows and columns of each tensor that is read. -/
def Shape.operandExtents (s : Shape) : Operands (Nat × Nat) :=
  { q := (s.numQueries, s.headDim)
    k := (s.numKeys, s.headDim)
    v := (s.numKeys, s.headDimValue)
    o := (s.numQueries, s.headDimValue)
    dO := (s.numQueries, s.headDimValue) }

/-- Rows and columns of each gradient. -/
def Shape.gradientExtents (s : Shape) : Gradients (Nat × Nat) :=
  { gradQ := (s.numQueries, s.headDim)
    gradK := (s.numKeys, s.headDim)
    gradV := (s.numKeys, s.headDimValue) }

end FusedAttention
