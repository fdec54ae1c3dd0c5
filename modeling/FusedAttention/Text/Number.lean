import FusedAttention.Binary.Decimal

/-! Reading numbers from text. -/
namespace FusedAttention.Text

open Binary

/-- The longest run of decimal digits in front, and what follows it. -/
def spanDigits (text : List Char) : List Char × List Char :=
  (text.takeWhile Char.isDigit, text.dropWhile Char.isDigit)

def digitValue (c : Char) : Nat :=
  c.toNat - '0'.toNat

/-- Number of a run of decimal digits. -/
def ofDigits (digits : List Char) : Nat :=
  digits.foldl (fun n c => 10 * n + digitValue c) 0

/-- An unsigned 64-bit number: digits only, a plus sign allowed in front. -/
def unsigned? (text : String) : Option Nat :=
  let digits := match text.toList with
    | '+' :: rest => rest
    | all => all
  if digits.isEmpty || !digits.all Char.isDigit then none
  else
    let n := ofDigits digits
    if n < UInt64.size then some n else none

/-- An exponent part: nothing, or `e` with an optional sign and at least one digit. -/
def exponent? (text : List Char) : Option Int :=
  match text with
  | [] => some 0
  | c :: rest =>
    if c = 'e' ∨ c = 'E' then
      let (negative, digits) := match rest with
        | '-' :: digits => (true, digits)
        | '+' :: digits => (false, digits)
        | digits => (false, digits)
      if digits.isEmpty || !digits.all Char.isDigit then none
      else some (if negative then -(ofDigits digits : Int) else ofDigits digits)
    else none

/-- A decimal as it is written: the digits before the point, those after it, and the
exponent. -/
structure Written where
  whole : List Char
  part : List Char
  exponent : Int

/-- The number that is written. -/
def Written.decimal (w : Written) : Decimal :=
  ⟨ofDigits (w.whole ++ w.part), w.exponent - w.part.length⟩

/-- Digits with an optional point and an optional exponent; at least one digit stands
beside the point. -/
def written? (text : List Char) : Option Written :=
  let (whole, rest) := spanDigits text
  let (part, rest) := match rest with
    | '.' :: more => spanDigits more
    | other => ([], other)
  if whole.isEmpty && part.isEmpty then none
  else (exponent? rest).map fun exponent => { whole, part, exponent }

/-- Pattern of a float: an optional sign, then a decimal or a name of infinity or of
not-a-number in any case. -/
def pattern? (f : Format) (text : String) : Option Nat :=
  let (negative, body) := match text.toList with
    | '-' :: rest => (true, rest)
    | '+' :: rest => (false, rest)
    | all => (false, all)
  let magnitude := match String.ofList (body.map Char.toLower) with
    | "inf" | "infinity" => some f.infinityBits
    | "nan" => some (f.encode .nan)
    | _ => (written? body).map fun (w : Written) => w.decimal.magnitude f
  magnitude.map ((if negative then f.signBit else 0) + ·)

def float32? (text : String) : Option Float32 :=
  (pattern? .binary32 text).map fun bits => Float32.ofBits (UInt32.ofNat bits)

def float64? (text : String) : Option Float :=
  (pattern? .binary64 text).map fun bits => Float.ofBits (UInt64.ofNat bits)

end FusedAttention.Text
