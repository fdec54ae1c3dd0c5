import FusedAttention.Text.Number

/-! Floats as documents hold them. A number is read into a significand of one 64-bit word
and a power of ten, and its value is the product or the quotient of the two as 64-bit
floats. That is the nearest float for short numbers and can be a neighbour of it for long
ones. -/
namespace FusedAttention.Text

open Binary

/-- The number `significand * 10 ^ exponent`. -/
structure Scaled where
  significand : Nat
  exponent : Int
  deriving DecidableEq, Repr

/-- Appends digits to a number as long as it stays below `2 ^ 64`. The digits from the
first that does not fit are left over. -/
def appendDigits (n : Nat) : List Char → Nat × List Char
  | [] => (n, [])
  | c :: rest =>
    let longer := 10 * n + digitValue c
    if longer < UInt64.size then appendDigits longer rest else (n, c :: rest)

/-- The number of the digits that fit in a word. A digit left over before the point still
counts as a place, one left over after the point does not. -/
def Scaled.ofWritten (w : Written) : Scaled :=
  let (n, beyond) := appendDigits 0 w.whole
  let (n, dropped) := appendDigits n w.part
  ⟨n, w.exponent + beyond.length - (w.part.length - dropped.length)⟩

/-- The float nearest to a power of ten. -/
def tenTo (places : Nat) : Float :=
  Float.ofBits (UInt64.ofNat (Decimal.magnitude .binary64 ⟨1, places⟩))

/-- The number as a float, which has to be finite. Powers beyond `10 ^ 308` are no floats: a
product with one is out of range, and a quotient takes two steps. -/
def Scaled.float? (s : Scaled) : Option Float :=
  let x := s.significand.toUInt64.toFloat
  if s.significand = 0 then some x
  else
    match s.exponent with
    | .ofNat places =>
      if 308 < places then none
      else
        let product := x * tenTo places
        if product.isFinite then some product else none
    | .negSucc k =>
      let places := k + 1
      some <|
        if places ≤ 308 then x / tenTo places
        else if places ≤ 616 then x / tenTo 308 / tenTo (places - 308)
        else 0

/-- The whole number that is written without point and exponent, if it fits in a word. A
negative one fits from `-2 ^ 63` on and is not zero. -/
def word? (negative : Bool) (digits : List Char) : Option Nat :=
  if digits.all Char.isDigit then
    match appendDigits 0 digits with
    | (n, []) => if negative && (n = 0 || UInt64.size / 2 < n) then none else some n
    | _ => none
  else none

/-- Sign and digits of a number of a document. -/
def splitSign (literal : String) : Bool × List Char :=
  match literal.toList with
  | '-' :: digits => (true, digits)
  | digits => (false, digits)

/-- A 64-bit float of a document. -/
def documentFloat64? (literal : String) : Option Float :=
  let (negative, digits) := splitSign literal
  ((written? digits).bind fun w => (Scaled.ofWritten w).float?).map fun x =>
    if negative then -x else x

/-- A 32-bit float of a document. A whole number that fits in a word is rounded once, any
other number is a 64-bit float first. -/
def documentFloat32? (literal : String) : Option Float32 :=
  let (negative, digits) := splitSign literal
  match word? negative digits with
  | some n =>
    let x := n.toUInt64.toFloat32
    some (if negative then -x else x)
  | none => (documentFloat64? literal).map (·.toFloat32)

end FusedAttention.Text
