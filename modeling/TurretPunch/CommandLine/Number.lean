import TurretPunch.Program.Word
import TurretPunch.Text.Blank

namespace TurretPunch.CommandLine

/-!
# Numbers as arguments

A number may have blanks around it and single underscores between its digits, and its digits may be
those of any script. Infinity and the number that is none have names, whose case does not matter.
-/

/-- The blanks that may stand around a number: all but the ASCII separators of files, groups,
records and units. -/
def isMargin (c : Char) : Bool := Text.isBlank c && !(0x1C ≤ c.toNat && c.toNat ≤ 0x1F)

def dropMargins (cs : List Char) : List Char :=
  ((cs.dropWhile isMargin).reverse.dropWhile isMargin).reverse

/-- Leaves out the underscores, each of which must stand between two digits. The flag says whether
a digit came before. -/
def dropUnderscores? (afterDigit : Bool) : List Char → Option (List Char)
  | [] => some []
  | '_' :: c :: rest =>
    if afterDigit && Text.isDigit c then (dropUnderscores? true rest).map (c :: ·) else none
  | c :: rest =>
    if c = '_' then none else (dropUnderscores? (Text.isDigit c) rest).map (c :: ·)

/-- The digits of a number without what may stand around and between them. -/
def bareNumber? (s : Text.Points) : Option (List Char) :=
  dropUnderscores? false (dropMargins s.chars)

def namedValue? (cs : List Char) : Option Float :=
  let (negative, name) := Program.scanSign cs
  let value? : Option Float :=
    match String.ofList (name.map (·.toLower)) with
    | "inf" => some Decimal.infinity
    | "infinity" => some Decimal.infinity
    | "nan" => some Decimal.notANumber
    | _ => none
  value?.map fun x => if negative then -x else x

def readFloat? (s : Text.Points) : Option Float := do
  let cs ← bareNumber? s
  match Program.scanNumeral? (cs.map fun c => if c = 'e' then 'E' else c) with
  | some (n, []) => return n.toFloat
  | _ => namedValue? cs

/-- Reads a whole number. It must not have too many digits. -/
def readInt? (s : Text.Points) : Option Int := do
  let cs ← bareNumber? s
  let (negative, ds) := Program.scanSign cs
  if ds.isEmpty || !ds.all Text.isDigit || Text.maxDigits < ds.length then none
  else
    let n : Int := Text.digitsValue (Text.digitValues ds)
    return if negative then -n else n

end TurretPunch.CommandLine
