import FusedAttention.Bench.Arguments
import FusedAttention.Dense.Problem
import FusedAttention.Launch.Document

/-! What the benchmark prints, and the exit code that it ends with. -/
namespace FusedAttention.Bench

open Text Binary

/-- How a command ends. -/
inductive Outcome where
  | printed (lines : List String)
  | failed (failure : Failure)
  /-- The command line asks for no command. -/
  | usage

namespace Outcome

def code : Outcome → UInt32
  | .printed _ => 0
  | .failed (.refused _) => 1
  | .failed (.fault _) => 101
  | .usage => 2

/-- Lines of the error stream. -/
def errors : Outcome → List String
  | .printed _ => []
  | .failed (.refused refusal) => ["Error: " ++ refusal.diagnostic]
  | .failed (.fault fault) => [fault.message]
  | .usage => ["usage: run|validate|workspace [--option value]..."]

def ofExcept : Except Failure (List String) → Outcome
  | .ok lines => .printed lines
  | .error failure => .failed failure

end Outcome

namespace ProblemArguments

/-- The drawn tensors with the outputs of the forward pass. -/
def inputs (p : ProblemArguments) : Except Failure (ForwardTensors Float32) :=
  let inputsIn (ε : Type) [Element ε Float32] : Except Fault (ForwardTensors Float32) := do
    let problem ← Problem.random ε p.shape p.bias p.seed
    problem.inputs ε p.settings p.biasGrads
  (match p.settings.dtype with
    | .f32 => inputsIn Float32
    | .f16 => inputsIn Binary16
    | .bf16 => inputsIn BFloat16).mapError .fault

end ProblemArguments

/-- Timings of one command: milliseconds of a launch on average. -/
abbrev Milliseconds := Float

/-- Attention scores a second. -/
def throughput (s : Shape) (time : Milliseconds) : Float :=
  (s.units * s.scoresPerHead).toFloat / (time / 1000)

def datumOf (x : Float) : Datum :=
  Format.binary64.decode x.toBits.toNat

/-- The result of timing a problem. -/
def runLines (p : ProblemArguments) (time : Milliseconds) (report : Report) (json : Bool) :
    List String :=
  let s := p.shape
  let rate := throughput s time
  if json then
    [(Json.object [
      ("dtype", .string p.settings.dtype.name),
      ("bias", .string p.bias.name),
      ("shape", s.toJson),
      ("block_i", .nat p.settings.blockI),
      ("block_j", .nat p.settings.blockJ),
      ("time_ms", .float64 time),
      ("throughput", .float64 rate),
      ("report", report.toJson)]).compact]
  else
    ["Evoformer Attention Backward",
      "============================",
      s!"Dtype: {p.settings.dtype.name}, Bias: {p.bias.name}",
      s!"Batch: {s.batch}, Heads: {s.heads}, Queries: {s.numQueries}, Keys: {s.numKeys}, " ++
        s!"Head dim: {s.headDim}",
      s!"Tiles: {p.settings.blockI}x{p.settings.blockJ}, " ++
        s!"Registers: {report.plan.outputInRegisters}, Units: {report.units}, " ++
        s!"Groups: {report.groups}",
      s!"Workspace: {report.workspace.sizeInBytes} bytes",
      "",
      "Time: " ++ fixed 2 (datumOf time) ++ " ms",
      "Throughput: " ++ fixed 0 (datumOf rate) ++ " scores/s"]

/-- The name of a result in a column of its own. -/
def column (name : String) : String :=
  name ++ String.ofList (List.replicate (12 - name.length) ' ')

/-- The result of comparing the kernel with the formulas without tiles. -/
def validateLines (p : ProblemArguments) (differences : List (String × Float32)) (json : Bool) :
    List String :=
  if json then
    [(Json.object [
      ("dtype", .string p.settings.dtype.name),
      ("bias", .string p.bias.name),
      ("shape", p.shape.toJson),
      ("max_abs_diff", .array (differences.map fun (name, difference) =>
        .array [.string name, .float32 difference]))]).compact]
  else
    s!"Max abs diff vs reference ({p.settings.dtype.name}):" ::
      differences.map fun (name, difference) =>
        "  " ++ column name ++ " " ++ scientific 3 (datumOfFloat difference)

namespace Command

/-- What a command prints, given the time that a launch took where it times one. -/
def lines (time : Milliseconds) : Command → Except Failure (List String)
  | .run p _ _ json => do
    let inputs ← p.inputs
    let (_, report) ← inputs.backward p.settings
    return runLines p time report json
  | .validate p json => do
    let (tested, expected) ← compare p.shape p.bias p.seed p.settings p.biasGrads
    return validateLines p (differences tested expected) json
  | .workspace p => do
    let layout ← ((Plan.of p.settings.dtype p.settings.tiles).workspaceLayout? p.shape).mapError .fault
    return [toString layout.sizeInBytes]

end Command

/-- How a command line ends, given the time that a launch took. -/
def outcome (time : Milliseconds) (arguments : List String) : Outcome :=
  match Command.ofArguments? arguments with
  | some command => .ofExcept (command.lines time)
  | none => .usage

end FusedAttention.Bench
