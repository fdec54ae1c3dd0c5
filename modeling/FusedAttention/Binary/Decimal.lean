import FusedAttention.Binary.Format

/-! Decimal numbers and their passage to and from binary formats: the fewest
digits that read back as a given binary number, a given count of significant
digits, and the binary number nearest to a decimal. -/
namespace FusedAttention.Binary

/-- The number `digits * 10 ^ exponent`. -/
structure Decimal where
  digits : Nat
  exponent : Int
  deriving DecidableEq, Repr

/-- Number of decimal digits of `n`, one for zero. -/
def digitCount (n : Nat) : Nat :=
  if n < 10 then 1 else digitCount (n / 10) + 1

/-- The `k` with `10 ^ (k - 1) ≤ numerator / denominator < 10 ^ k`: where the
decimal point stands when the first significant digit follows it. -/
def decimalPoint (numerator denominator : Nat) : Int :=
  let guess : Int := (digitCount numerator : Int) - digitCount denominator
  let reached := match guess with
    | .ofNat k => decide (denominator * Nat.pow 10 k ≤ numerator)
    | .negSucc k => decide (denominator ≤ numerator * Nat.pow 10 (k + 1))
  if reached then guess + 1 else guess

namespace Decimal

/-- Position of the decimal point from the first digit. -/
def point (d : Decimal) : Int :=
  digitCount d.digits + d.exponent

/-- The same number without trailing zero digits. -/
def stripFuel : Nat → Decimal → Decimal
  | 0, d => d
  | fuel + 1, d =>
    if d.digits ≠ 0 ∧ d.digits % 10 = 0 then stripFuel fuel ⟨d.digits / 10, d.exponent + 1⟩ else d

def strip (d : Decimal) : Decimal :=
  stripFuel (digitCount d.digits) d

/-- Exact quotient of a decimal. -/
def quotient (d : Decimal) : Nat × Nat :=
  match d.exponent with
  | .ofNat k => (d.digits * Nat.pow 10 k, 1)
  | .negSucc k => (d.digits, Nat.pow 10 (k + 1))

/-- Magnitude pattern nearest to `d`. A decimal far beyond the format's range is
settled by its decimal point alone. -/
def magnitude (f : Format) (d : Decimal) : Nat :=
  if d.digits = 0 then 0
  else if d.point > Nat.pow 2 f.exponentBits then f.infinityBits
  else if d.point < -(Nat.pow 2 f.exponentBits : Int) then 0
  else f.roundMagnitude d.quotient.1 d.quotient.2

end Decimal

/-- Which of two neighbouring whole numbers is taken for the number half way between. -/
inductive Tie where
  | even
  | upward
  deriving DecidableEq, Repr

/-- The choice between `below` and its successor. -/
def Tie.choose (tie : Tie) (below : Nat) : Nat :=
  match tie with
  | .even => if below % 2 = 0 then below else below + 1
  | .upward => below + 1

/-- The interval of the numbers that round to one binary number, in quarters of the unit of
its last place, and all over `denominator`. The gap below a power of two is half as wide,
and the ends belong to the interval when the significand is even. -/
structure Neighbourhood where
  low : Nat
  middle : Nat
  high : Nat
  closed : Bool
  denominator : Nat

namespace Neighbourhood

def of (f : Format) (significand : Nat) (exponent : Int) : Neighbourhood :=
  let atPower := significand = Nat.pow 2 f.fractionBits ∧ f.leastExponent < exponent
  let low := if atPower then 4 * significand - 1 else 4 * significand - 2
  let scaled := fun (n : Nat) => match exponent - 2 with
    | .ofNat k => n * Nat.pow 2 k
    | .negSucc _ => n
  let denominator := match exponent - 2 with
    | .ofNat _ => 1
    | .negSucc k => Nat.pow 2 (k + 1)
  { low := scaled low
    middle := scaled (4 * significand)
    high := scaled (4 * significand + 2)
    closed := significand % 2 = 0
    denominator }

/-- The same interval in units of `10 ^ exponent`. -/
def inUnits (n : Neighbourhood) (exponent : Int) : Neighbourhood :=
  match exponent with
  | .ofNat k => { n with denominator := n.denominator * Nat.pow 10 k }
  | .negSucc k =>
    { n with
      low := n.low * Nat.pow 10 (k + 1)
      middle := n.middle * Nat.pow 10 (k + 1)
      high := n.high * Nat.pow 10 (k + 1) }

/-- Whether the whole number `c` lies in the interval. -/
def holds (n : Neighbourhood) (c : Nat) : Bool :=
  let x := c * n.denominator
  if n.closed then n.low ≤ x ∧ x ≤ n.high else n.low < x ∧ x < n.high

/-- The whole number of the interval nearest to its middle, among the two that
enclose the middle. -/
def nearestWhole? (n : Neighbourhood) (tie : Tie) : Option Nat :=
  let below := n.middle / n.denominator
  let nearer :=
    match Ord.compare (2 * (n.middle % n.denominator)) n.denominator with
    | .lt => below
    | .eq => tie.choose below
    | .gt => below + 1
  let further := if nearer = below then below + 1 else below
  if n.holds nearer then some nearer
  else if n.holds further then some further
  else none

end Neighbourhood

/-- Tries 1, 2, … significant digits, at most `fuel` more, and takes the first grid
of decimals that meets the interval. -/
def shortestFrom (n : Neighbourhood) (tie : Tie) (point : Int) : Nat → Nat → Decimal
  | 0, count => ⟨n.middle / n.denominator, point - count⟩
  | fuel + 1, count =>
    match (n.inUnits (point - count)).nearestWhole? tie with
    | some c => ⟨c, point - count⟩
    | none => shortestFrom n tie point fuel (count + 1)

/-- The decimal of fewest digits that rounds to `significand * 2 ^ exponent`, the
nearest of those. Seventeen digits single out every number of 53 bits. -/
def shortest (f : Format) (tie : Tie) (significand : Nat) (exponent : Int) : Decimal :=
  if significand = 0 then ⟨0, 0⟩
  else
    let n := Neighbourhood.of f significand exponent
    (shortestFrom n tie (decimalPoint n.middle n.denominator) 17 1).strip

/-- Exact quotient of a finite binary number. -/
def quotientOf (significand : Nat) : Int → Nat × Nat
  | .ofNat k => (significand * Nat.pow 2 k, 1)
  | .negSucc k => (significand, Nat.pow 2 (k + 1))

/-- The decimal of `count` significant digits nearest to `numerator / denominator`,
a tie to the even one. -/
def significant (count numerator denominator : Nat) : Decimal :=
  if numerator = 0 then ⟨0, 0⟩
  else
    let exponent := decimalPoint numerator denominator - count
    let digits := match exponent with
      | .ofNat k => roundQuotient numerator (denominator * Nat.pow 10 k)
      | .negSucc k => roundQuotient (numerator * Nat.pow 10 (k + 1)) denominator
    if digits = Nat.pow 10 count then ⟨Nat.pow 10 (count - 1), exponent + 1⟩
    else ⟨digits, exponent⟩

end FusedAttention.Binary
