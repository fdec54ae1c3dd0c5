import FusedAttention.Bias
import FusedAttention.Settings

/-! The command line of the benchmark: one of three commands and options in any order, each
at most once. -/
namespace FusedAttention.Bench

open Text

/-- The random problem that a command is about. -/
structure ProblemArguments where
  shape : Shape
  bias : BiasMode
  biasGrads : Bool
  seed : UInt64
  settings : Settings

inductive Command where
  /-- Times the kernel. -/
  | run (problem : ProblemArguments) (warmup repeats : Nat) (json : Bool)
  /-- Compares the kernel with the formulas without tiles. -/
  | validate (problem : ProblemArguments) (json : Bool)
  /-- Prints the size of the workspace. -/
  | workspace (problem : ProblemArguments)

/-! ### Options -/

/-- Options of a problem that take a value. -/
def problemOptions : List String :=
  ["batch", "heads", "queries", "keys", "head-dim", "head-dim-value", "group-size", "dtype",
    "bias", "block-i", "block-j", "max-head-dim", "dropout", "seed"]

/-- The options that a command takes: those with a value and those without. -/
structure OptionNames where
  valued : List String
  switches : List String

/-- The name of an option and the value after its equals sign, if it has one. -/
def optionOf? (token : String) : Option (String × Option String) :=
  match token.toList with
  | '-' :: '-' :: rest =>
    let name := rest.takeWhile (· ≠ '=')
    let value := match rest.dropWhile (· ≠ '=') with
      | _ :: value => some (String.ofList value)
      | [] => none
    some (String.ofList name, value)
  | _ => none

/-- The options of a command line with their values, a switch with an empty one. A value
in a token of its own does not start with a hyphen, and two hyphens end the options. -/
def readOptions? (names : OptionNames) : List String → Option (List (String × String))
  | [] => some []
  | ["--"] => some []
  | token :: rest =>
    match optionOf? token with
    | none => none
    | some (name, some value) =>
      if names.valued.contains name then (readOptions? names rest).map ((name, value) :: ·)
      else none
    | some (name, none) =>
      if names.switches.contains name then (readOptions? names rest).map ((name, "") :: ·)
      else if names.valued.contains name then
        match rest with
        | [] => none
        | value :: rest =>
          if value.startsWith "-" then none
          else (readOptions? names rest).map ((name, value) :: ·)
      else none

/-- The options of a command line, none of them twice. -/
def options? (names : OptionNames) (tokens : List String) : Option (List (String × String)) := do
  let options ← readOptions? names tokens
  if (options.map (·.1)).Nodup then return options else none

/-- The value of an option, or what stands for it where it is not given. -/
def valueOf? {τ : Type} (options : List (String × String)) (read? : String → Option τ)
    (name : String) (default : τ) : Option τ :=
  match options.lookup name with
  | some value => read? value
  | none => some default

def ProblemArguments.ofOptions? (options : List (String × String)) :
    Option ProblemArguments := do
  let number := valueOf? options unsigned?
  let headDim ← number "head-dim" 32
  let seed := UInt64.ofNat (← number "seed" 0)
  return {
    shape :=
      { batch := ← number "batch" 1
        heads := ← number "heads" 4
        numQueries := ← number "queries" 128
        numKeys := ← number "keys" 128
        headDim
        headDimValue := ← number "head-dim-value" headDim
        groupSize := ← number "group-size" 1 }
    bias := ← valueOf? options BiasMode.ofName? "bias" .none
    biasGrads := (options.lookup "bias-grads").isSome
    seed
    settings :=
      { blockI := ← number "block-i" 64
        blockJ := ← number "block-j" 64
        maxHeadDim := ← number "max-head-dim" 128
        dropoutProb := ← valueOf? options float32? "dropout" 0
        dropoutSeed := seed
        dtype := ← valueOf? options DType.ofName? "dtype" .f32 } }

/-- The command that a command line asks for. -/
def Command.ofArguments? : List String → Option Command
  | "run" :: tokens => do
    let options ← options?
      ⟨problemOptions ++ ["warmup", "repeats"], ["bias-grads", "json"]⟩ tokens
    let problem ← ProblemArguments.ofOptions? options
    let warmup ← valueOf? options unsigned? "warmup" 1
    let repeats ← valueOf? options unsigned? "repeats" 3
    return .run problem warmup repeats (options.lookup "json").isSome
  | "validate" :: tokens => do
    let options ← options? ⟨problemOptions, ["bias-grads", "json"]⟩ tokens
    let problem ← ProblemArguments.ofOptions? options
    return .validate problem (options.lookup "json").isSome
  | "workspace" :: tokens => do
    let options ← options? ⟨problemOptions, ["bias-grads"]⟩ tokens
    return .workspace (← ProblemArguments.ofOptions? options)
  | _ => none

end FusedAttention.Bench
