import FusedAttention.Random.ChaCha

/-! Random floats of a range, from the words of a stream. -/
namespace FusedAttention.Random

/-- A number from zero up to but not including one: the leading 23 bits of a word as the
fraction of a number between one and two, less one. -/
def unitFraction (word : UInt32) : Float32 :=
  Float32.ofBits ((word >>> 9) ||| 0x3f800000) - 1

/-- A range that numbers can be drawn from. -/
def checkRange (low high : Float32) : Except Fault Unit :=
  if low < high && low.isFinite && high.isFinite && (high - low).isFinite then .ok ()
  else .error .emptyRange

/-- A number of `[low, high)`. Rounding can make a draw reach the upper end, and then it is
drawn again, at most `attempts` times. -/
def drawFloat (low high : Float32) : Nat → Reader → Float32 × Reader
  | 0, reader => (low, reader)
  | attempts + 1, reader =>
    let (word, reader) := reader.next
    let x := unitFraction word * (high - low) + low
    if x < high then (x, reader) else drawFloat low high attempts reader

/-- Draws are repeated at most this often, which a range of two neighbouring floats, where
every second draw is repeated, never needs. -/
def drawAttempts : Nat := 1024

/-- The next `count` numbers of `[low, high)`. -/
def drawFloats (low high : Float32) (count : Nat) (reader : Reader) : Array Float32 × Reader :=
  Nat.fold count (fun _ _ (values, reader) =>
    let (x, reader) := drawFloat low high drawAttempts reader
    (values.push x, reader)) (#[], reader)

/-- `drawFloats` of a range that is not known to be one; it is looked at only if a number
is drawn. -/
def drawFloats? (low high : Float32) (count : Nat) (reader : Reader) :
    Except Fault (Array Float32 × Reader) := do
  if count ≠ 0 then checkRange low high
  return drawFloats low high count reader

end FusedAttention.Random
