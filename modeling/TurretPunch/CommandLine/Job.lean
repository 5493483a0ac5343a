import TurretPunch.Session.Notice
import TurretPunch.Storage.Basic

namespace TurretPunch.CommandLine

/-!
# Jobs

A job works on the files of a storage and prints. It can end before all of its steps are made, with
an exit code or, when something fails that nobody answers for, with a fault. What was printed until
then stays.
-/

/-- Where something is printed. -/
inductive Channel where
  | output
  | errors
deriving DecidableEq, Repr

/-- Something printed. -/
structure Printed where
  channel : Channel
  text : Text.Points
deriving DecidableEq, Repr

namespace Printed

def line (s : Text.Points) : Printed := ⟨.output, s ++ "\n"⟩

def errorLine (s : Text.Points) : Printed := ⟨.errors, s ++ "\n"⟩

/-- What is printed of a notice. Only warnings are, unless there shall be more. -/
def ofNotice? (verbose : Bool) (notice : Notice) : Option Printed :=
  if verbose || Level.warning.rank ≤ notice.level.rank then
    match notice.text with
    | .ok s => some (errorLine (notice.level.name ++ " " ++ notice.source ++ ": " ++ s))
    | .error _ => none
  else none

def textOn (channel : Channel) (printed : List Printed) : Text.Points :=
  .join ((printed.filter (·.channel == channel)).map (·.text))

@[simp] theorem textOn_nil (channel : Channel) : textOn channel [] = "" := rfl

end Printed

/-- How a job ends. -/
inductive Ending where
  | exit (code : Nat)
  | fault (fault : Fault)
deriving Repr

/-- The files, and what has been printed so far. -/
structure Desk where
  storage : Storage
  printed : List Printed := []

/-- A job with a result, unless it ends before. -/
abbrev Job := ExceptT Ending (StateM Desk)

def print (printed : List Printed) : Job Unit :=
  modify fun desk => { desk with printed := desk.printed ++ printed }

def say (s : Text.Points) : Job Unit := print [.line s]

def complain (s : Text.Points) : Job Unit := print [.errorLine s]

def tell (verbose : Bool) (notices : List Notice) : Job Unit :=
  print (notices.filterMap (Printed.ofNotice? verbose))

def finish {α : Type} (code : Nat) : Job α := throw (.exit code)

/-- Ends the job after a line of the error output. -/
def refuse {α : Type} (s : Text.Points) : Job α := do
  complain ("Error: " ++ s)
  finish 1

/-- Goes on with a value; a fault ends the job. -/
def require {α : Type} : Except Fault α → Job α
  | .ok value => pure value
  | .error fault => throw (.fault fault)

/-- Whether a fault is answered for: whether it comes from what the user gave, and is told to the
user. -/
def isAnswered : Fault → Bool
  | .missingDocument .. | .malformedDocument .. | .unexpectedContent .. => true
  | .duplicateStation _ | .invalidShape _ | .unpairedEntry .. => true
  | .negativeInterval | .noLogRoom | .unknownPattern .. => true
  | .undecodable _ | .longInteger _ => true
  | _ => false

/-- Goes on with a value; a fault that is answered for is told. -/
def requireAnswered {α : Type} : Except Fault α → Job α
  | .error fault => if isAnswered fault then refuse fault.message else throw (.fault fault)
  | outcome => require outcome

end TurretPunch.CommandLine
