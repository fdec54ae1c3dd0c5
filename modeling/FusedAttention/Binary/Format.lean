/-! Binary interchange formats: a sign, an exponent field and a fraction field.
`Format.decode` reads a bit pattern as an exact number and `Format.round` gives
the pattern nearest to an exact quotient, ties to the even pattern. -/
namespace FusedAttention.Binary

/-- A format by the number of significant bits, the leading one included, and the
width of its exponent field. -/
structure Format where
  precision : Nat
  exponentBits : Nat
  deriving DecidableEq, Repr

namespace Format

def binary16 : Format := ⟨11, 5⟩
def bfloat16 : Format := ⟨8, 8⟩
def binary32 : Format := ⟨24, 8⟩
def binary64 : Format := ⟨53, 11⟩

/-- Width of the fraction field; the leading significant bit is not stored. -/
def fractionBits (f : Format) : Nat := f.precision - 1

/-- Exponent of the last place of the smallest positive value. -/
def leastExponent (f : Format) : Int :=
  3 - Nat.pow 2 (f.exponentBits - 1) - f.precision

/-- Pattern of positive infinity; patterns below it are the finite magnitudes in
increasing order, patterns above it are not numbers. -/
def infinityBits (f : Format) : Nat :=
  (Nat.pow 2 f.exponentBits - 1) * Nat.pow 2 f.fractionBits

/-- The bit that tells negative patterns from positive ones. -/
def signBit (f : Format) : Nat :=
  Nat.pow 2 (f.exponentBits + f.fractionBits)

end Format

/-- What a bit pattern stands for: a finite datum is `significand * 2 ^ exponent`,
negated if `negative`. -/
inductive Datum where
  | nan
  | infinite (negative : Bool)
  | finite (negative : Bool) (significand : Nat) (exponent : Int)
  deriving DecidableEq, Repr

namespace Format

def decode (f : Format) (bits : Nat) : Datum :=
  let negative := f.signBit ≤ bits
  let magnitude := bits % f.signBit
  if f.infinityBits < magnitude then .nan
  else if magnitude = f.infinityBits then .infinite negative
  else
    let field := magnitude / Nat.pow 2 f.fractionBits
    let fraction := magnitude % Nat.pow 2 f.fractionBits
    if field = 0 then .finite negative fraction f.leastExponent
    else .finite negative (Nat.pow 2 f.fractionBits + fraction) (f.leastExponent + (field - 1))

end Format

/-- The whole number nearest to `numerator / denominator`, a tie to the even one. -/
def roundQuotient (numerator denominator : Nat) : Nat :=
  let quotient := numerator / denominator
  let twice := 2 * (numerator % denominator)
  if denominator < twice ∨ (twice = denominator ∧ quotient % 2 = 1) then quotient + 1
  else quotient

/-- `numerator / denominator / 2 ^ exponent`, rounded to a whole number. -/
def roundScaled (numerator denominator : Nat) (exponent : Int) : Nat :=
  match exponent with
  | .ofNat k => roundQuotient numerator (denominator * Nat.pow 2 k)
  | .negSucc k => roundQuotient (numerator * Nat.pow 2 (k + 1)) denominator

/-- The exponent `e` with `2 ^ e ≤ numerator / denominator < 2 ^ (e + 1)`. -/
def exponentOf (numerator denominator : Nat) : Int :=
  let guess : Int := (numerator.log2 : Int) - denominator.log2
  let below := match guess with
    | .ofNat k => decide (numerator < denominator * Nat.pow 2 k)
    | .negSucc k => decide (numerator * Nat.pow 2 (k + 1) < denominator)
  if below then guess - 1 else guess

namespace Format

/-- Magnitude pattern nearest to `numerator / denominator`. The last place of the
result is `precision` bits below the leading one but not below the format's least
exponent, and a carry out of the significand runs into the exponent field. -/
def roundMagnitude (f : Format) (numerator denominator : Nat) : Nat :=
  if numerator = 0 then 0
  else
    let lastPlace := max (exponentOf numerator denominator - f.fractionBits) f.leastExponent
    let significand := roundScaled numerator denominator lastPlace
    min ((lastPlace - f.leastExponent).toNat * Nat.pow 2 f.fractionBits + significand) f.infinityBits

/-- Pattern nearest to `± numerator / denominator`. -/
def round (f : Format) (negative : Bool) (numerator denominator : Nat) : Nat :=
  (if negative then f.signBit else 0) + f.roundMagnitude numerator denominator

/-- Pattern of a datum in `f`, rounded where `f` is too narrow for it. -/
def encode (f : Format) : Datum → Nat
  | .nan => f.infinityBits + Nat.pow 2 (f.fractionBits - 1)
  | .infinite negative => (if negative then f.signBit else 0) + f.infinityBits
  | .finite negative significand (.ofNat k) => f.round negative (significand * Nat.pow 2 k) 1
  | .finite negative significand (.negSucc k) => f.round negative significand (Nat.pow 2 (k + 1))

end Format

end FusedAttention.Binary
