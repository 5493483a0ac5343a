import TurretPunch.Decimal.Numeral

namespace TurretPunch.Program

/-!
# Words

A word is a letter with a numeral or with digits right after it. Of several words with one letter in
a line the first counts, and it is as long as it can be. Letters without what belongs to them are
passed over.
-/

/-- A sign, if there is one. -/
def scanSign : List Char → Bool × List Char
  | '-' :: rest => (true, rest)
  | '+' :: rest => (false, rest)
  | cs => (false, cs)

/-- Digits with a point before, among or after them, or without one: those before it, those after
it, and the rest of the text. -/
def scanMantissa? (cs : List Char) : Option (List Char × List Char × List Char) :=
  let whole := cs.takeWhile Text.isDigit
  match cs.dropWhile Text.isDigit with
  | '.' :: rest =>
    let fraction := rest.takeWhile Text.isDigit
    if whole.isEmpty && fraction.isEmpty then none
    else some (whole, fraction, rest.dropWhile Text.isDigit)
  | rest => if whole.isEmpty then none else some (whole, [], rest)

/-- An exponent mark with digits after it, and the rest of the text. A mark without digits is none
and stays in the rest. -/
def scanExponent (cs : List Char) : Int × List Char :=
  match cs with
  | 'E' :: marked =>
    let (negative, rest) := scanSign marked
    let ds := rest.takeWhile Text.isDigit
    if ds.isEmpty then (0, cs)
    else
      let e : Int := Text.digitsValue (Text.digitValues ds)
      (if negative then -e else e, rest.dropWhile Text.isDigit)
  | _ => (0, cs)

/-- The longest numeral at the start of a text, and the rest of the text. -/
def scanNumeral? (cs : List Char) : Option (Decimal.Numeral × List Char) :=
  let (negative, unsigned) := scanSign cs
  match scanMantissa? unsigned with
  | none => none
  | some (whole, fraction, rest) =>
    let (exponent, rest) := scanExponent rest
    some (⟨negative, Text.digitValues whole, Text.digitValues fraction, exponent⟩, rest)

/-- The numeral after the first `letter` that has one. -/
def numeralAfter? (letter : Char) : List Char → Option Decimal.Numeral
  | [] => none
  | c :: rest =>
    match if c == letter then scanNumeral? rest else none with
    | some (n, _) => some n
    | none => numeralAfter? letter rest

/-- The value of the first word with a letter and a numeral. -/
def valueOf? (letter : Char) (cs : List Char) : Option Float :=
  (numeralAfter? letter cs).map (·.toFloat)

/-- The digits after the first `letter` that has some. -/
def digitsAfter? (letter : Char) : List Char → Option (List Char)
  | [] => none
  | c :: rest =>
    let ds := if c == letter then rest.takeWhile Text.isDigit else []
    if ds.isEmpty then digitsAfter? letter rest else some ds

/-- Whether `word` occurs in a text. -/
def mentions (word : List Char) : List Char → Bool
  | [] => word.isEmpty
  | c :: rest => word.isPrefixOf (c :: rest) || mentions word rest

end TurretPunch.Program
