import FusedAttention.Binary.Decimal

/-! Written forms of binary numbers: which are written out in full and which with
an exponent, and the names of the values that have no digits. -/
namespace FusedAttention.Binary

/-- How a number is written. The decimal point of a number written in full lies
between `least` and `greatest` places after the first digit (no bound where
`none`), and `pointed` numbers keep a `.0` after a whole number. `plusSign` marks
an exponent that is not negative, and `tie` chooses between two decimals of the
same length that are equally near. -/
structure Notation where
  least : Option Int
  greatest : Option Int
  pointed : Bool
  plusSign : Bool
  tie : Tie

namespace Notation

/-- Messages write every number in full. -/
def plain : Notation := ⟨none, none, false, false, .upward⟩

/-- Diagnostics write numbers from 1e-4 up to 1e16 in full. -/
def diagnostic : Notation := ⟨some (-3), some 16, true, false, .upward⟩

/-- Documents write 32-bit numbers from 1e-6 up to 1e13 in full. -/
def document32 : Notation := ⟨some (-5), some 13, true, true, .even⟩

/-- Documents write 64-bit numbers from 1e-5 up to 1e16 in full. -/
def document64 : Notation := ⟨some (-4), some 16, true, true, .even⟩

def zeros (count : Nat) : String :=
  String.ofList (List.replicate count '0')

/-- First digit, point and further digits, if any. -/
def leading (digits : List Char) : String :=
  match digits with
  | [] => ""
  | [d] => String.singleton d
  | d :: rest => String.singleton d ++ "." ++ String.ofList rest

def inFull (n : Notation) (digits : List Char) (point : Int) : String :=
  match point with
  | .negSucc k => "0." ++ zeros (k + 1) ++ String.ofList digits
  | .ofNat 0 => "0." ++ String.ofList digits
  | .ofNat k =>
    if digits.length ≤ k then
      String.ofList digits ++ zeros (k - digits.length) ++ (if n.pointed then ".0" else "")
    else String.ofList (digits.take k) ++ "." ++ String.ofList (digits.drop k)

/-- The power of ten of a number that is not written in full. -/
def exponent (n : Notation) (power : Int) : String :=
  (if n.plusSign ∧ 0 ≤ power then "e+" else "e") ++ toString power

def magnitude (n : Notation) (d : Decimal) : String :=
  if d.digits = 0 then (if n.pointed then "0.0" else "0")
  else
    let digits := Nat.toDigits 10 d.digits
    let full := n.least.all (· ≤ d.point) && n.greatest.all (d.point ≤ ·)
    if full then n.inFull digits d.point
    else leading digits ++ n.exponent (d.point - 1)

def signed (negative : Bool) (text : String) : String :=
  if negative then "-" ++ text else text

/-- The shortest written form that reads back as the same number of format `f`. -/
def text (n : Notation) (f : Format) : Datum → String
  | .nan => "NaN"
  | .infinite negative => signed negative "inf"
  | .finite negative significand exponent =>
    signed negative (n.magnitude (shortest f n.tie significand exponent))

def text32 (n : Notation) (x : Float32) : String :=
  n.text .binary32 (Format.binary32.decode x.toBits.toNat)

def text64 (n : Notation) (x : Float) : String :=
  n.text .binary64 (Format.binary64.decode x.toBits.toNat)

end Notation

/-- Written with one digit before the point, `places` after it, and an exponent. -/
def scientific (places : Nat) : Datum → String
  | .nan => "NaN"
  | .infinite negative => Notation.signed negative "inf"
  | .finite negative significand exponent =>
    let (numerator, denominator) := quotientOf significand exponent
    let d := significant (places + 1) numerator denominator
    let digits := Nat.toDigits 10 d.digits
    let padded := digits ++ List.replicate (places + 1 - digits.length) '0'
    let power := if d.digits = 0 then 0 else d.point - 1
    Notation.signed negative (Notation.leading padded ++ "e" ++ toString power)

/-- Written in full with `places` digits after the point, a tie to the even one. -/
def fixed (places : Nat) : Datum → String
  | .nan => "NaN"
  | .infinite negative => Notation.signed negative "inf"
  | .finite negative significand exponent =>
    let (numerator, denominator) := quotientOf significand exponent
    let scaled := roundQuotient (numerator * Nat.pow 10 places) denominator
    let whole := toString (scaled / Nat.pow 10 places)
    let part := Nat.toDigits 10 (scaled % Nat.pow 10 places)
    Notation.signed negative <|
      if places = 0 then whole
      else whole ++ "." ++ Notation.zeros (places - part.length) ++ String.ofList part

end FusedAttention.Binary
