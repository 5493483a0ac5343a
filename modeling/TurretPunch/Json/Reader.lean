import TurretPunch.Json.Basic
import TurretPunch.Decimal.Numeral

namespace TurretPunch.Json

/-!
# Reading JSON

Besides standard JSON, the reader takes `NaN`, `Infinity` and `-Infinity` for numbers. Of members
with one name the last counts. A refusal says what was expected and at which line and column.
-/

/-- What is wrong with a text. -/
inductive Problem where
  | byteOrderMark
  | valueExpected
  | nameExpected
  | colonExpected
  | commaExpected
  | unterminatedString
  | controlCharacter
  | badEscape
  | badUnicodeEscape
  | extraData
deriving DecidableEq, Repr

/-- Why a text is refused. -/
inductive Refusal where
  /-- The text is no JSON from this position on; lines and columns count from one. -/
  | malformed (problem : Problem) (line column position : Nat)
  /-- A whole number has more digits than are taken. -/
  | longInteger (digits : Nat)
  /-- Arrays and objects are nested too deeply. -/
  | deepNesting
deriving DecidableEq, Repr

/-- A refusal while scanning, with the number of characters that are left from its position on. -/
inductive Stuck where
  | malformed (problem : Problem) (left : Nat)
  | longInteger (digits : Nat)
  | deepNesting

/-- How many arrays and objects may be open at a time. -/
def maxNesting : Nat := 991

def isJsonBlank (c : Char) : Bool := c == ' ' || c == '\t' || c == '\n' || c == '\r'

def skipBlanks (cs : List Char) : List Char := cs.dropWhile isJsonBlank

def hexDigit? (c : Char) : Option Nat :=
  if '0' ≤ c ∧ c ≤ '9' then some (c.toNat - 48)
  else if 'a' ≤ c ∧ c ≤ 'f' then some (c.toNat - 87)
  else if 'A' ≤ c ∧ c ≤ 'F' then some (c.toNat - 55)
  else none

def hexNumber? (a b c d : Char) : Option Nat := do
  let a ← hexDigit? a
  let b ← hexDigit? b
  let c ← hexDigit? c
  let d ← hexDigit? d
  return ((a * 16 + b) * 16 + c) * 16 + d

/-- The character that a one-letter escape stands for. -/
def escapedChar? (c : Char) : Option Char :=
  if c = '"' ∨ c = '\\' ∨ c = '/' then some c
  else if c = 'b' then some '\x08'
  else if c = 'f' then some '\x0c'
  else if c = 'n' then some '\n'
  else if c = 'r' then some '\r'
  else if c = 't' then some '\t'
  else none

/-- Whether a number is the first half of a surrogate pair. -/
def isHighSurrogate (n : Nat) : Bool := 0xD800 ≤ n && n < 0xDC00

/-- Whether a number is the second half of a surrogate pair. -/
def isLowSurrogate (n : Nat) : Bool := 0xDC00 ≤ n && n < 0xE000

/-- The code point that a surrogate pair stands for. -/
def joinSurrogates (high low : Nat) : Nat := 0x10000 + (high - 0xD800) * 0x400 + (low - 0xDC00)

/-- The code points with these numbers, where surrogates may stand in pairs. -/
def joinPairs : List Nat → List Text.Point
  | [] => []
  | [n] => [.ofCode n]
  | n :: m :: rest =>
    if isHighSurrogate n && isLowSurrogate m then .ofCode (joinSurrogates n m) :: joinPairs rest
    else .ofCode n :: joinPairs (m :: rest)

/-- Reads a string as code points, after those that are done, in reverse. What stood after its opening
quotation mark is `start`. An escape by code point is taken only if something follows it. -/
def scanString (start : List Char) : List Nat → List Char → Except Stuck (List Nat × List Char)
  | _, [] => .error (.malformed .unterminatedString (start.length + 1))
  | done, '"' :: rest => .ok (done.reverse, rest)
  | done, '\\' :: 'u' :: a :: b :: c :: d :: rest =>
    match hexNumber? a b c d, rest.isEmpty with
    | some n, false => scanString start (n :: done) rest
    | _, _ => .error (.malformed .badUnicodeEscape (rest.length + 5))
  | done, '\\' :: rest =>
    match rest with
    | [] => .error (.malformed .unterminatedString (start.length + 1))
    | c :: rest =>
      if c = 'u' then .error (.malformed .badUnicodeEscape (rest.length + 1))
      else
        match escapedChar? c with
        | none => .error (.malformed .badEscape (rest.length + 2))
        | some e => scanString start (e.toNat :: done) rest
  | done, c :: rest =>
    if c.toNat < 0x20 then .error (.malformed .controlCharacter (rest.length + 1))
    else scanString start (c.toNat :: done) rest

/-- Reads a string after its opening quotation mark. -/
def readString (rest : List Char) : Except Stuck (Text.Points × List Char) :=
  (scanString rest [] rest).map fun (ns, rest) => (⟨joinPairs ns⟩, rest)

/-- The ASCII digits at the start of a text, as values, and what follows them. -/
def spanAsciiDigits : List Char → List Nat × List Char
  | [] => ([], [])
  | c :: rest =>
    if '0' ≤ c ∧ c ≤ '9' then
      let (ds, after) := spanAsciiDigits rest
      ((c.toNat - 48) :: ds, after)
    else ([], c :: rest)

/-- A point with at least one digit after it. -/
def spanFraction (cs : List Char) : List Nat × List Char :=
  match cs with
  | '.' :: rest =>
    match spanAsciiDigits rest with
    | ([], _) => ([], cs)
    | found => found
  | _ => ([], cs)

/-- An exponent mark with a sign, if there is one, and at least one digit. -/
def spanExponent? (cs : List Char) : Option (Int × List Char) :=
  match cs with
  | mark :: rest =>
    if mark = 'e' ∨ mark = 'E' then
      let (negative, rest) := match rest with
        | '-' :: rest => (true, rest)
        | '+' :: rest => (false, rest)
        | _ => (false, rest)
      match spanAsciiDigits rest with
      | ([], _) => none
      | (ds, after) =>
        let e : Int := Text.digitsValue ds
        some (if negative then -e else e, after)
    else none
  | [] => none

/-- Reads a number: a whole number if it has neither point nor exponent. A zero at the start is the
whole part by itself. -/
def readNumber (cs : List Char) : Except Stuck (Json × List Char) :=
  let (negative, rest) := match cs with
    | '-' :: rest => (true, rest)
    | _ => (false, cs)
  let (whole, rest) := match rest with
    | '0' :: rest => ([0], rest)
    | _ => spanAsciiDigits rest
  if whole.isEmpty then .error (.malformed .valueExpected cs.length)
  else
    let (fraction, rest) := spanFraction rest
    match fraction, spanExponent? rest with
    | [], none =>
      if Text.maxDigits < whole.length then .error (.longInteger whole.length)
      else
        let n : Int := Text.digitsValue whole
        .ok (.int (if negative then -n else n), rest)
    | _, some (e, rest) => .ok (.float (Decimal.Numeral.toFloat ⟨negative, whole, fraction, e⟩), rest)
    | _, none => .ok (.float (Decimal.Numeral.toFloat ⟨negative, whole, fraction, 0⟩), rest)

def literals : List (List Char × Json) := [
  ("null".toList, .null), ("true".toList, .bool true), ("false".toList, .bool false),
  ("NaN".toList, .float Decimal.notANumber), ("Infinity".toList, .float Decimal.infinity),
  ("-Infinity".toList, .float (-Decimal.infinity))]

/-- Reads a word that stands for a value, or else a number. -/
def readScalar (cs : List Char) : Except Stuck (Json × List Char) :=
  match literals.find? fun (word, _) => word.isPrefixOf cs with
  | some (word, value) => .ok (value, cs.drop word.length)
  | none => readNumber cs

mutual

/-- Reads a value. Each call takes one unit of fuel, and at least every second call takes a
character. -/
def readValue : Nat → Nat → List Char → Except Stuck (Json × List Char)
  | 0, _, cs => .error (.malformed .valueExpected cs.length)
  | fuel + 1, depth, cs =>
    match cs with
    | '"' :: rest => (readString rest).map fun (s, rest) => (.string s, rest)
    | '{' :: rest =>
      match depth, skipBlanks rest with
      | 0, _ => .error .deepNesting
      | _ + 1, '}' :: rest => .ok (.object [], rest)
      | depth + 1, rest => readMembers fuel depth [] rest
    | '[' :: rest =>
      match depth, skipBlanks rest with
      | 0, _ => .error .deepNesting
      | _ + 1, ']' :: rest => .ok (.array [], rest)
      | depth + 1, rest => readItems fuel depth [] rest
    | _ => readScalar cs

/-- Reads the items of an array up to its end, after those that are done, in reverse. -/
def readItems : Nat → Nat → List Json → List Char → Except Stuck (Json × List Char)
  | 0, _, _, cs => .error (.malformed .valueExpected cs.length)
  | fuel + 1, depth, done, cs =>
    match readValue fuel depth cs with
    | .error stuck => .error stuck
    | .ok (value, rest) =>
      match skipBlanks rest with
      | ']' :: rest => .ok (.array (value :: done).reverse, rest)
      | ',' :: rest => readItems fuel depth (value :: done) (skipBlanks rest)
      | rest => .error (.malformed .commaExpected rest.length)

/-- Reads the members of an object up to its end, after those that are done. -/
def readMembers : Nat → Nat → List (Text.Points × Json) → List Char → Except Stuck (Json × List Char)
  | 0, _, _, cs => .error (.malformed .valueExpected cs.length)
  | fuel + 1, depth, done, cs =>
    match cs with
    | '"' :: rest =>
      match readString rest with
      | .error stuck => .error stuck
      | .ok (name, rest) =>
        match skipBlanks rest with
        | ':' :: rest =>
          match readValue fuel depth (skipBlanks rest) with
          | .error stuck => .error stuck
          | .ok (value, rest) =>
            let done := putMember name value done
            match skipBlanks rest with
            | '}' :: rest => .ok (.object done, rest)
            | ',' :: rest => readMembers fuel depth done (skipBlanks rest)
            | rest => .error (.malformed .commaExpected rest.length)
        | rest => .error (.malformed .colonExpected rest.length)
    | _ => .error (.malformed .nameExpected cs.length)

end

/-- The place where `left` characters of a text are left. -/
def Stuck.refusal (text : List Char) : Stuck → Refusal
  | .malformed problem left =>
    let position := text.length - left
    let before := text.take position
    let line := before.count '\n' + 1
    let column := (before.reverse.takeWhile (· != '\n')).length + 1
    .malformed problem line column position
  | .longInteger digits => .longInteger digits
  | .deepNesting => .deepNesting

/-- Reads a whole text as one value with blanks around it. -/
def readAll (cs : List Char) : Except Stuck Json :=
  match cs with
  | '\uFEFF' :: _ => .error (.malformed .byteOrderMark cs.length)
  | _ =>
    match readValue (2 * cs.length + 2) maxNesting (skipBlanks cs) with
    | .error stuck => .error stuck
    | .ok (value, rest) =>
      match skipBlanks rest with
      | [] => .ok value
      | rest => .error (.malformed .extraData rest.length)

def read (cs : List Char) : Except Refusal Json := (readAll cs).mapError (Stuck.refusal cs)

def Problem.message : Problem → String
  | .byteOrderMark => "Unexpected UTF-8 BOM (decode using utf-8-sig)"
  | .valueExpected => "Expecting value"
  | .nameExpected => "Expecting property name enclosed in double quotes"
  | .colonExpected => "Expecting ':' delimiter"
  | .commaExpected => "Expecting ',' delimiter"
  | .unterminatedString => "Unterminated string starting at"
  | .controlCharacter => "Invalid control character at"
  | .badEscape => "Invalid \\escape"
  | .badUnicodeEscape => "Invalid \\uXXXX escape"
  | .extraData => "Extra data"

end TurretPunch.Json
