import TurretPunch.Json.Display
import TurretPunch.Json.Reader
import TurretPunch.Text.Utf8

namespace TurretPunch

/-!
# Faults

Everything that can make a call fail, as a cause. The wording is in `Fault.message` alone.
-/

/-- The files that configure a session. -/
inductive Document where
  | toolLibrary
  | settingsFile
deriving DecidableEq, Repr

namespace Document

/-- The name of a kind of file at the start of a sentence. -/
def title : Document → String
  | toolLibrary => "Tool library"
  | settingsFile => "Settings file"

/-- The name of a kind of file inside a sentence. -/
def label : Document → String
  | toolLibrary => "tool library"
  | settingsFile => "settings file"

/-- The JSON value that a file must hold. -/
def content : Document → String
  | toolLibrary => "list"
  | settingsFile => "object"

end Document

/-- Why a call fails. -/
inductive Fault where
  /-- A configuration file is not there. -/
  | missingDocument (document : Document) (path : Text.Points)
  /-- A configuration file is no JSON. -/
  | malformedDocument (document : Document) (path : Text.Points) (problem : Json.Problem)
      (line column position : Nat)
  /-- A configuration file holds JSON of the wrong kind. -/
  | unexpectedContent (document : Document) (path : Text.Points)
  /-- Two tools claim one station. -/
  | duplicateStation (number : Json)
  /-- A tool has no shape or one that does not exist. -/
  | invalidShape (entry : List (Json × Json))
  /-- An entry of the wrong length stands where a pair should. -/
  | unpairedEntry (index length : Nat)
  /-- The playback interval is negative. -/
  | negativeInterval
  /-- The playback log has no room. -/
  | noLogRoom
  /-- A file is not UTF-8. -/
  | undecodable (error : Text.Utf8Error)
  /-- A whole number has too many digits. -/
  | longInteger (digits : Nat)
  /-- A JSON value is nested too deeply. -/
  | deepNesting
  /-- A value is of the wrong type for what is done with it. -/
  | wrongType
  /-- A text stands where a number is to be written. -/
  | unwritable
  /-- A whole number is beyond every double. -/
  | overflow
  /-- The corner of a footprint is no number. -/
  | cornerless
  /-- A footprint touches an edge of the sheet that goes on for ever. -/
  | endlessEdge
  /-- Points do not come in pairs. -/
  | unpairedPoints
  /-- A number of decimal places is negative or too large. -/
  | badPlaces
  /-- No coordinate mode has this word. -/
  | unknownMode (word : Text.Points)
  /-- No pattern has this key. -/
  | unknownPattern (key : Text.Points) (keys : List String)
  /-- The loaded program is shorter than the one that is played. -/
  | pastProgramEnd
  /-- A playback is asked for a step while it makes one. -/
  | alreadyPlaying
  /-- No run has been made yet. -/
  | noRun
  /-- The user interrupts a wait. -/
  | interrupted
  /-- There is no such file or directory. -/
  | noSuchFile
  /-- A file is where a directory is to be made. -/
  | fileInTheWay
  /-- A directory is where a file is to be read or written. -/
  | isDirectory
  /-- A file stands on the way to another. -/
  | notDirectory
  /-- A path or a name in it is too long. -/
  | nameTooLong
  /-- A path has a null character in it. -/
  | nullInPath
  /-- A text has half of a surrogate pair in it, which cannot be written. -/
  | unencodable
deriving BEq, Repr

def displayEntry : List (Json × Json) → String
  | [] => ""
  | [(key, value)] => key.display ++ ": " ++ value.display
  | (key, value) :: rest => key.display ++ ": " ++ value.display ++ ", " ++ displayEntry rest

def byteText (b : UInt8) : String := String.ofList ('0' :: 'x' :: Text.hexadecimal 2 b.toNat)

/-- What is wrong with bytes that are not UTF-8. -/
def undecodableMessage (e : Text.Utf8Error) : String :=
  let where_ :=
    if e.count = 1 then "byte " ++ byteText e.byte ++ " in position " ++ Decimal.integer e.position
    else "bytes in position " ++ Decimal.integer e.position ++ "-"
      ++ Decimal.integer (e.position + e.count - 1)
  let reason := match e.fault with
    | .startByte => "invalid start byte"
    | .continuationByte => "invalid continuation byte"
    | .endOfData => "unexpected end of data"
  "'utf-8' codec can't decode " ++ where_ ++ ": " ++ reason

def Fault.message : Fault → Text.Points
  | missingDocument document path => document.title ++ " not found: " ++ path
  | malformedDocument document path problem line column position =>
    "Malformed " ++ document.label ++ " " ++ path ++ ": " ++ problem.message
      ++ ": line " ++ Decimal.integer line ++ " column " ++ Decimal.integer column
      ++ " (char " ++ Decimal.integer position ++ ")"
  | unexpectedContent document path =>
    document.title ++ " " ++ path ++ " must contain a JSON " ++ document.content
  | duplicateStation number => "Duplicate tool station T" ++ number.plain
  | invalidShape entry => "Invalid tool shape in \x7b" ++ displayEntry entry ++ "\x7d"
  | unpairedEntry index length =>
    "dictionary update sequence element #" ++ Decimal.integer index ++ " has length "
      ++ Decimal.integer length ++ "; 2 is required"
  | negativeInterval => "interval_ms must not be negative"
  | noLogRoom => "log_limit must be at least 1"
  | undecodable error => undecodableMessage error
  | longInteger digits =>
    "Exceeds the limit (" ++ Decimal.integer Text.maxDigits
      ++ " digits) for integer string conversion: value has " ++ Decimal.integer digits
      ++ " digits; use sys.set_int_max_str_digits() to increase the limit"
  | deepNesting => "nested too deeply"
  | wrongType => "wrong type of value"
  | unwritable => "not a number"
  | overflow => "whole number too large"
  | cornerless => "footprint without corners"
  | endlessEdge => "sheet without end"
  | unpairedPoints => "points do not come in pairs"
  | badPlaces => "number of places out of range"
  | unknownMode word => "unknown coordinate mode " ++ word.quoted
  | unknownPattern key keys =>
    "Unknown pattern " ++ key.quoted ++ "; choose from " ++ ", ".intercalate keys
  | pastProgramEnd => "no such operation"
  | alreadyPlaying => "already playing"
  | noRun => "no run yet"
  | interrupted => "interrupted"
  | noSuchFile => "no such file or directory"
  | fileInTheWay => "file exists"
  | isDirectory => "is a directory"
  | notDirectory => "not a directory"
  | nameTooLong => "file name too long"
  | nullInPath => "null character in a path"
  | unencodable => "half of a surrogate pair"

end TurretPunch
