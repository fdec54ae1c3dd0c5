import FusedAttention.Kernel.Phase

/-! The ways a computation on buffers can go wrong. Every access outside a buffer,
every copy between runs of different lengths and every step out of order is one of
these, so that "no fault" can be stated of a whole launch. -/
namespace FusedAttention

inductive Fault where
  /-- A row to be written ends past its buffer. -/
  | rowOutside (row start stop size : Nat)
  /-- A run to be read ends past its buffer. -/
  | sliceOutside (start stop size : Nat)
  | indexOutside (index size : Nat)
  | lengthMismatch (expected actual : Nat)
  /-- Lanes that are exchanged in pairs are not a power of two. -/
  | unevenLanes (count : Nat)
  | phaseOrder (current next : Phase)
  | zeroDivisor
  /-- A sum of positions needs more than 64 bits. -/
  | overflow
  /-- A size that is taken of at least one element has none. -/
  | emptyExtent
  /-- A range of random numbers is empty or not finite. -/
  | emptyRange
  /-- Dimensions of the operands of a tensor operation do not fit. -/
  | unfitDimensions (expected actual : List Nat)
  deriving DecidableEq, Repr

namespace Fault

def message : Fault → String
  | .rowOutside row start stop size =>
    s!"row {row} [{start}, {stop}) out of bounds for buffer of {size}"
  | .sliceOutside start stop size => s!"range {start}..{stop} out of bounds for buffer of {size}"
  | .indexOutside index size => s!"index {index} out of bounds for buffer of {size}"
  | .lengthMismatch expected actual => s!"{actual} elements where {expected} are needed"
  | .unevenLanes count => s!"lane count {count} is not a power of two"
  | .phaseOrder current next =>
    "scratch phase " ++ current.name ++ " cannot be followed by " ++ next.name
  | .zeroDivisor => "division by zero"
  | .overflow => "a sum of positions is past 64 bits"
  | .emptyExtent => "an extent is zero"
  | .emptyRange => "a range of random numbers is empty"
  | .unfitDimensions expected actual => s!"dimensions {actual} where {expected} are needed"

end Fault

/-- What a sum of positions past 64 bits comes to. Where sums are checked it is a fault, and where
they wrap its remainder stands for it. -/
inductive Overflow where
  | checked
  | wrapping
  deriving DecidableEq, Repr, Inhabited

/-- Faults on a sum past 64 bits if sums are checked. -/
def Overflow.check : Overflow → Nat → Except Fault Unit
  | .checked, sum => if sum < UInt64.size then .ok () else .error .overflow
  | .wrapping, _ => .ok ()

/-- Runs steps in order up to the first that fails: the state before that one, and its
fault. -/
def runUntil {σ ι : Type} (step : σ → ι → Except Fault σ) : σ → List ι → σ × Option Fault
  | state, [] => (state, none)
  | state, i :: rest =>
    match step state i with
    | .ok state => runUntil step state rest
    | .error fault => (state, some fault)

/-- The outcome of a run that keeps nothing of what was done before a fault. -/
def settle {σ : Type} : σ × Option Fault → Except Fault σ
  | (state, none) => .ok state
  | (_, some fault) => .error fault

theorem foldlM_eq_settle {σ ι : Type} (step : σ → ι → Except Fault σ) (steps : List ι)
    (state : σ) : steps.foldlM step state = settle (runUntil step state steps) := by
  induction steps generalizing state with
  | nil => rfl
  | cons i rest ih =>
    rw [List.foldlM_cons, runUntil]
    cases step state i with
    | ok next => exact ih next
    | error fault => rfl

end FusedAttention
