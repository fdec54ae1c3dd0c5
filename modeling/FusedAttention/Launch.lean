import FusedAttention.Kernel.Unit
import FusedAttention.Launch.Check

/-! A launch: the checks, and then every unit, group after group. -/
namespace FusedAttention

/-- What a launch did. -/
structure Report where
  plan : Plan
  workspace : WorkspaceLayout
  scratchBytes : Nat
  units : Nat
  groups : Nat
  deriving DecidableEq, Repr, Inhabited

/-- Why a launch has no report. -/
inductive Failure where
  | refused (refusal : Refusal)
  | fault (fault : Fault)

def Settings.dropout (settings : Settings) : Dropout :=
  ⟨settings.dropoutProb, settings.dropoutSeed, settings.dropoutOffset⟩

variable {α ε : Type} [Scalar α] [Element ε α]

/-- Runs one unit on the memory of the launch, with its own row of Delta and its own slice
of the workspace. -/
def Kernel.runOn (kernel : Kernel α ε) (memory : Memory α ε) (coord : UnitCoord) :
    Except Fault (Memory α ε) := do
  let ⟨grads, delta, biasGrads, workspace⟩ := memory
  let numQueries := kernel.shape.numQueries
  let stride := kernel.workspace.unitStride
  let index := coord.index kernel.shape.heads
  let row ← sliceOf delta (index * numQueries) numQueries
  let slice ← match workspace with
    | some buffer =>
      if kernel.workspace.isEmpty then .ok none
      else (sliceOf buffer (index * stride) stride).map some
    | none => .ok none
  let (row, ⟨grads, biasGrads, slice⟩) ← kernel.runUnit coord row ⟨grads, biasGrads, slice⟩
  let delta := writeRun delta (index * numQueries) row
  let workspace := match workspace, slice with
    | some buffer, some values => some (writeRun buffer (index * stride) values)
    | workspace, _ => workspace
  return ⟨grads, delta, biasGrads, workspace⟩

namespace Request

/-- The kernel that serves a request. -/
def kernel (request : Request α ε) (settings : Settings) (policy : QueryStart) : Kernel α ε :=
  let plan := settings.plan ε
  { request
    plan
    workspace := plan.workspaceLayout request.shape
    scale := Scalar.ofFloat (settings.resolvedScale request.shape.headDim)
    dropout := settings.dropout
    overflow := settings.overflow
    policy }

/-- The units of each group, which depend on the bias gradients that are wanted. -/
def groups (request : Request α ε) (memory : Memory α ε) : List (List UnitCoord) :=
  request.shape.unitGroups (memory.biasGrads.map (·.isSome))

/-- Runs all units. -/
def run (request : Request α ε) (settings : Settings) (policy : QueryStart) (memory : Memory α ε) :
    Except Fault (Memory α ε) :=
  (request.groups memory).flatten.foldlM (request.kernel settings policy).runOn memory

def report (request : Request α ε) (settings : Settings) (memory : Memory α ε) : Report :=
  let plan := settings.plan ε
  { plan
    workspace := plan.workspaceLayout request.shape
    scratchBytes := plan.tiles.scratchBytes
    units := request.shape.units
    groups := (request.groups memory).length }

/-- Computes all gradients under a policy that says which query rows each key tile attends
to. A launch that is refused leaves the memory as it is. One that ends in a fault does not
return, and the memory beside a fault means nothing. -/
def launch (request : Request α ε) (settings : Settings) (policy : QueryStart)
    (memory : Memory α ε) : Except Failure Report × Memory α ε :=
  match request.check settings memory with
  | .error refusal => (.error (.refused refusal), memory)
  | .ok () =>
    match request.run settings policy memory with
    | .ok after => (.ok (request.report settings memory), after)
    | .error fault => (.error (.fault fault), memory)

end Request

end FusedAttention
