import FusedAttention.Bench.Outcome

/-! The benchmark as a program. -/
namespace FusedAttention.Bench

/-- Runs one launch and gives the nanoseconds it took. -/
def timeLaunch (inputs : ForwardTensors Float32) (settings : Settings) : IO Nat := do
  let start ← IO.monoNanosNow
  let outcome ← IO.lazyPure fun _ => inputs.backward settings
  match outcome with
  | .ok (outputs, _) => if outputs.delta.data.size = 0 then IO.eprintln "no rows"
  | .error _ => pure ()
  let stop ← IO.monoNanosNow
  return stop - start

/-- Mean time of the launches of a command after its warm-up. -/
def meanTime : Command → IO Milliseconds
  | .run p warmup repeats _ => do
    match p.inputs with
    | .error _ => return 0
    | .ok inputs =>
      for _ in [0:warmup] do
        let _ ← timeLaunch inputs p.settings
      let mut total := 0
      for _ in [0:max repeats 1] do
        total := total + (← timeLaunch inputs p.settings)
      return total.toFloat / 1000000 / (max repeats 1).toFloat
  | _ => return 0

end FusedAttention.Bench

open FusedAttention.Bench in
def main (arguments : List String) : IO UInt32 := do
  let time ← match Command.ofArguments? arguments with
    | some command => meanTime command
    | none => pure 0
  let outcome := outcome time arguments
  match outcome with
  | .printed lines => for line in lines do IO.println line
  | other => for line in other.errors do IO.eprintln line
  return outcome.code
