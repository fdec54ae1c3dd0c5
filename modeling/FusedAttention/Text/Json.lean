import FusedAttention.Binary.Notation
import FusedAttention.Text.Scaled

/-! Documents of nested values, their reader and their two printers. A number is
kept as it is written. -/
namespace FusedAttention.Text

inductive Json where
  | null
  | bool (value : Bool)
  | number (literal : String)
  | string (text : String)
  | array (items : List Json)
  | object (fields : List (String × Json))
  deriving Inhabited

namespace Json

def nat (n : Nat) : Json :=
  .number (toString n)

/-- A finite float; the others have no written form in a document. -/
def float32 (x : Float32) : Json :=
  if x.isFinite then .number (Binary.Notation.document32.text32 x) else .null

def float64 (x : Float) : Json :=
  if x.isFinite then .number (Binary.Notation.document64.text64 x) else .null

/-! ### Printing -/

/-- Four hexadecimal digits. -/
def hexEscape (c : Char) : String :=
  let digits := Nat.toDigits 16 c.toNat
  "\\u" ++ Binary.Notation.zeros (4 - digits.length) ++ String.ofList digits

def escapeChar (c : Char) : String :=
  if c = '"' then "\\\""
  else if c = '\\' then "\\\\"
  else if c = '\n' then "\\n"
  else if c = '\r' then "\\r"
  else if c = '\t' then "\\t"
  else if c.toNat = 8 then "\\b"
  else if c.toNat = 12 then "\\f"
  else if c.toNat < 32 then hexEscape c
  else String.singleton c

def quote (text : String) : String :=
  "\"" ++ String.join (text.toList.map escapeChar) ++ "\""

mutual

/-- Without blanks. -/
def compact : Json → String
  | .null => "null"
  | .bool value => toString value
  | .number literal => literal
  | .string text => quote text
  | .array items => "[" ++ ",".intercalate (compactItems items) ++ "]"
  | .object fields => "\x7b" ++ ",".intercalate (compactFields fields) ++ "\x7d"

def compactItems : List Json → List String
  | [] => []
  | item :: rest => compact item :: compactItems rest

def compactFields : List (String × Json) → List String
  | [] => []
  | (key, value) :: rest => (quote key ++ ":" ++ compact value) :: compactFields rest

end

def indent (depth : Nat) : String :=
  "\n" ++ String.ofList (List.replicate (2 * depth) ' ')

/-- Entries on lines of their own between two brackets. -/
def block (depth : Nat) (opening closing : String) (entries : List String) : String :=
  if entries.isEmpty then opening ++ closing
  else
    opening ++ indent (depth + 1) ++ ("," ++ indent (depth + 1)).intercalate entries ++
      indent depth ++ closing

mutual

/-- One entry a line, two blanks a level. -/
def prettyAt (depth : Nat) : Json → String
  | .null => "null"
  | .bool value => toString value
  | .number literal => literal
  | .string text => quote text
  | .array items => block depth "[" "]" (prettyItems (depth + 1) items)
  | .object fields => block depth "\x7b" "\x7d" (prettyFields (depth + 1) fields)

def prettyItems (depth : Nat) : List Json → List String
  | [] => []
  | item :: rest => prettyAt depth item :: prettyItems depth rest

def prettyFields (depth : Nat) : List (String × Json) → List String
  | [] => []
  | (key, value) :: rest =>
    (quote key ++ ": " ++ prettyAt depth value) :: prettyFields depth rest

end

def pretty (json : Json) : String :=
  prettyAt 0 json

/-! ### Reading -/

def isBlank (c : Char) : Bool :=
  c = ' ' || c = '\n' || c = '\r' || c = '\t'

def skipBlank (text : List Char) : List Char :=
  text.dropWhile isBlank

def hexDigit? (c : Char) : Option Nat :=
  if c.isDigit then some (digitValue c)
  else if 'a' ≤ c ∧ c ≤ 'f' then some (c.toNat - 'a'.toNat + 10)
  else if 'A' ≤ c ∧ c ≤ 'F' then some (c.toNat - 'A'.toNat + 10)
  else none

def hex4? (a b c d : Char) : Option Nat := do
  return 4096 * (← hexDigit? a) + 256 * (← hexDigit? b) + 16 * (← hexDigit? c) + (← hexDigit? d)

def simpleEscape? (c : Char) : Option Char :=
  if c = '"' ∨ c = '\\' ∨ c = '/' then some c
  else if c = 'b' then some (Char.ofNat 8)
  else if c = 'f' then some (Char.ofNat 12)
  else if c = 'n' then some '\n'
  else if c = 'r' then some '\r'
  else if c = 't' then some '\t'
  else none

def isHighSurrogate (code : Nat) : Bool :=
  0xD800 ≤ code && code < 0xDC00

def isLowSurrogate (code : Nat) : Bool :=
  0xDC00 ≤ code && code < 0xE000

/-- The character that two escaped surrogates make. -/
def paired? (high : Nat) (low : Option Nat) : Option Char :=
  low.bind fun low =>
    if isHighSurrogate high && isLowSurrogate low then
      some (Char.ofNat (0x10000 + 1024 * (high - 0xD800) + (low - 0xDC00)))
    else none

/-- The character of one escaped code, `lone` for a surrogate. -/
def unpaired? (lone : Option Char) (code : Nat) : Option Char :=
  if isHighSurrogate code || isLowSurrogate code then lone else some (Char.ofNat code)

/-- Characters up to the closing quote, and what follows it. Two escaped surrogates make one
character, and each of the others is read as `lone`, or refused if there is none. A bare
control character is refused. -/
def stringTail (lone : Option Char) : List Char → Option (List Char × List Char)
  | [] => none
  | '"' :: rest => some ([], rest)
  | '\\' :: 'u' :: a :: b :: c :: d :: '\\' :: 'u' :: a' :: b' :: c' :: d' :: rest => do
    let code ← hex4? a b c d
    match paired? code (hex4? a' b' c' d') with
    | some first =>
      let (text, rest) ← stringTail lone rest
      return (first :: text, rest)
    | none =>
      let first ← unpaired? lone code
      let (text, rest) ← stringTail lone ('\\' :: 'u' :: a' :: b' :: c' :: d' :: rest)
      return (first :: text, rest)
  | '\\' :: 'u' :: a :: b :: c :: d :: rest => do
    let first ← unpaired? lone (← hex4? a b c d)
    let (text, rest) ← stringTail lone rest
    return (first :: text, rest)
  | '\\' :: c :: rest => do
    let e ← simpleEscape? c
    let (text, rest) ← stringTail lone rest
    return (e :: text, rest)
  | c :: rest =>
    if c = '\\' ∨ c.toNat < 32 then none
    else do
      let (text, rest) ← stringTail lone rest
      return (c :: text, rest)

/-- Digits of a whole part: a single zero or a run that starts with another digit. -/
def wholePart? (text : List Char) : Option (List Char × List Char) :=
  let (digits, rest) := spanDigits text
  match digits with
  | [] => none
  | ['0'] => some (['0'], rest)
  | '0' :: _ => none
  | _ => some (digits, rest)

/-- A point with at least one digit, or nothing. -/
def fractionPart? (text : List Char) : Option (List Char × List Char) :=
  match text with
  | '.' :: rest =>
    let (digits, rest) := spanDigits rest
    if digits.isEmpty then none else some ('.' :: digits, rest)
  | other => some ([], other)

/-- An exponent with at least one digit, or nothing. -/
def exponentPart? (text : List Char) : Option (List Char × List Char) :=
  match text with
  | c :: rest =>
    if c = 'e' ∨ c = 'E' then
      let (sign, rest) := match rest with
        | '-' :: rest => (['-'], rest)
        | '+' :: rest => (['+'], rest)
        | rest => ([], rest)
      let (digits, rest) := spanDigits rest
      if digits.isEmpty then none else some (c :: (sign ++ digits), rest)
    else some ([], text)
  | [] => some ([], [])

def numberHead? (text : List Char) : Option (Json × List Char) := do
  let (sign, rest) := match text with
    | '-' :: rest => (['-'], rest)
    | rest => ([], rest)
  let (whole, rest) ← wholePart? rest
  let (fraction, rest) ← fractionPart? rest
  let (exponent, rest) ← exponentPart? rest
  return (.number (String.ofList (sign ++ whole ++ fraction ++ exponent)), rest)

/-- What stands for a surrogate without its partner. -/
def replacement : Char :=
  Char.ofNat 0xFFFD

mutual

/-- One value at the front of the text; `fuel` bounds the values nested and listed, and
`lone` is for the keys of the value itself. Inside of it lone surrogates are replaced. -/
def value? (lone : Option Char) : Nat → List Char → Option (Json × List Char)
  | 0, _ => none
  | fuel + 1, text =>
    match skipBlank text with
    | 'n' :: 'u' :: 'l' :: 'l' :: rest => some (.null, rest)
    | 't' :: 'r' :: 'u' :: 'e' :: rest => some (.bool true, rest)
    | 'f' :: 'a' :: 'l' :: 's' :: 'e' :: rest => some (.bool false, rest)
    | '"' :: rest =>
      (stringTail replacement rest).map fun (s, rest) => (.string (String.ofList s), rest)
    | '[' :: rest =>
      match skipBlank rest with
      | ']' :: rest => some (.array [], rest)
      | rest => (items? fuel rest).map fun (items, rest) => (.array items, rest)
    | '\x7b' :: rest =>
      match skipBlank rest with
      | '\x7d' :: rest => some (.object [], rest)
      | rest => (fields? lone fuel rest).map fun (fields, rest) => (.object fields, rest)
    | rest => numberHead? rest

/-- Items up to the closing bracket. -/
def items? : Nat → List Char → Option (List Json × List Char)
  | 0, _ => none
  | fuel + 1, text => do
    let (item, rest) ← value? replacement fuel text
    match skipBlank rest with
    | ']' :: rest => return ([item], rest)
    | ',' :: rest =>
      let (items, rest) ← items? fuel rest
      return (item :: items, rest)
    | _ => none

/-- Fields up to the closing brace. -/
def fields? (lone : Option Char) : Nat → List Char → Option (List (String × Json) × List Char)
  | 0, _ => none
  | fuel + 1, text =>
    match skipBlank text with
    | '"' :: rest => do
      let (key, rest) ← stringTail lone rest
      match skipBlank rest with
      | ':' :: rest =>
        let (item, rest) ← value? replacement fuel rest
        match skipBlank rest with
        | '\x7d' :: rest => return ([(String.ofList key, item)], rest)
        | ',' :: rest =>
          let (fields, rest) ← fields? lone fuel rest
          return ((String.ofList key, item) :: fields, rest)
        | _ => none
      | _ => none
    | _ => none

end

/-- Reads a text that holds one value and nothing else but blanks. The keys of an outermost
object are whole characters, while lone surrogates are replaced further inside. Every value
and every step through a list takes a character, so twice the length is fuel enough. -/
def parse? (text : String) : Option Json := do
  let cs := text.toList
  let (json, rest) ← value? none (2 * cs.length + 1) cs
  if (skipBlank rest).isEmpty then return json else none

/-! ### Values of a document -/

/-- The value of a field of an object. A field that is `null` counts as missing. -/
def field? (json : Json) (key : String) : Option Json :=
  match json with
  | .object fields => (fields.lookup key).filter fun | .null => false | _ => true
  | _ => none

def asString? : Json → Option String
  | .string text => some text
  | _ => none

def asArray? : Json → Option (List Json)
  | .array items => some items
  | _ => none

def asBool? : Json → Option Bool
  | .bool value => some value
  | _ => none

/-- A whole number without a point or an exponent. -/
def asInt? : Json → Option Int
  | .number literal => literal.toInt?
  | _ => none

/-- An unsigned 64-bit whole number. -/
def asUnsigned? : Json → Option Nat
  | .number literal => if literal.toList.all Char.isDigit then unsigned? literal else none
  | _ => none

def asFloat32? : Json → Option Float32
  | .number literal => documentFloat32? literal
  | _ => none

def asFloat64? : Json → Option Float
  | .number literal => documentFloat64? literal
  | _ => none

/-- A name, also one that is the only key of an object without content. -/
def asName? : Json → Option String
  | .string name => some name
  | .object [(name, .null)] => some name
  | _ => none

end Json

end FusedAttention.Text
