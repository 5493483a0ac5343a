import TurretPunch.CommandLine.Number
import TurretPunch.CommandLine.Switch
import TurretPunch.Storage.Path

namespace TurretPunch.CommandLine

/-!
# Arguments

Arguments are switches, with their values, and the path of a program. A long switch may be cut short
as long as it can be told from the others. A value stands in the next argument or, after an equals
sign, in the same one, where two dashes leave the switch without a value. An argument that is nothing
but two dashes makes nothing after it a switch.
-/

/-- What stands among the arguments in the place of a value. -/
inductive Given (α : Type) where
  /-- The switch does not occur. -/
  | absent
  /-- The switch occurs and has two dashes instead of a value. -/
  | void
  /-- The switch occurs with a value. -/
  | value (x : α)
deriving Repr

namespace Given

/-- The value, if there is one. -/
def value? {α : Type} : Given α → Option α
  | value x => some x
  | _ => none

end Given

/-- What the arguments ask for. Where there is something to fall back on, no value counts as no
switch. -/
structure Arguments where
  program : Option Path := none
  pattern : Option Text.Points := none
  listPatterns : Bool := false
  listTools : Bool := false
  tools : Option Path := none
  settings : Option Path := none
  width : Given Float := .absent
  height : Given Float := .absent
  interval : Given Float := .absent
  check : Bool := false
  seek : Given Int := .absent
  saveTo : Given Path := .absent
  verbose : Bool := false
deriving Repr

/-- Why arguments are not understood. -/
inductive UsageError where
  | ambiguous (argument : Text.Points) (spellings : List String)
  | valueMissing (switch : Switch)
  | valueIgnored (switch : Switch) (value : Text.Points)
  | badNumber (switch : Switch) (value : Text.Points)
  | badWholeNumber (switch : Switch) (value : Text.Points)
  | unrecognized (arguments : List Text.Points)
deriving Repr

def UsageError.message : UsageError → Text.Points
  | ambiguous argument spellings =>
    "ambiguous option: " ++ argument ++ " could match " ++ ", ".intercalate spellings
  | valueMissing switch => "argument " ++ switch.label ++ ": expected one argument"
  | valueIgnored switch value =>
    "argument " ++ switch.label ++ ": ignored explicit argument " ++ value.quoted
  | badNumber switch value =>
    "argument " ++ switch.label ++ ": invalid float value: " ++ value.quoted
  | badWholeNumber switch value =>
    "argument " ++ switch.label ++ ": invalid int value: " ++ value.quoted
  | unrecognized arguments => "unrecognized arguments: " ++ .intercalate " " arguments

/-- What an argument is taken for. What is attached to a switch stands in its argument, after an
equals sign or right after the letter of a short switch. -/
inductive Token where
  | plain (argument : Text.Points)
  | dashes
  | switch (switch : Switch) (spelling : String) (attached : Option Text.Points)
  | unknown (argument : Text.Points)

/-- Whether an argument looks like a negative number. -/
def isNegativeNumber (cs : List Char) : Bool :=
  match cs with
  | '-' :: rest =>
    let rest := if rest.getLast? = some '\n' then rest.dropLast else rest
    match rest.dropWhile Text.isDigit with
    | [] => !rest.isEmpty
    | '.' :: ds => !ds.isEmpty && ds.all Text.isDigit
    | _ => false
  | _ => false

/-- The part of an argument before the first equals sign, and the part after it. -/
def splitEquals (argument : Text.Points) : List Char × Option Text.Points :=
  let start := argument.toList.takeWhile (· != .char '=')
  let value :=
    match argument.toList.dropWhile (· != .char '=') with
    | [] => none
    | _ :: value => some ⟨value⟩
  (start.map (·.replacement), value)

/-- The ways to take an argument for a switch that is not spelled out. A long switch may be cut
short; a short one may have its value, or more short switches, right after it. -/
def candidates (argument : Text.Points) : List Token :=
  match argument.chars with
  | '-' :: '-' :: _ =>
    let (start, value) := splitEquals argument
    Switch.table.filterMap fun (spelling, switch) =>
      if start.isPrefixOf spelling.toList then
        some (.switch switch spelling value)
      else none
  | cs =>
    Switch.table.filterMap fun (spelling, switch) =>
      if spelling.toList = cs.take 2 then
        some (.switch switch spelling (some ⟨argument.toList.drop 2⟩))
      else if cs.isPrefixOf spelling.toList then some (.switch switch spelling none)
      else none

/-- What a token stands for among the arguments. -/
def Token.text : Token → Text.Points
  | .switch _ spelling _ => spelling
  | .plain argument => argument
  | .unknown argument => argument
  | .dashes => "--"

/-- The spelling of the switch that a token is. -/
def Token.spelling? : Token → Option String
  | .switch _ spelling _ => some spelling
  | _ => none

/-- What an argument is taken for, if it is spelled out. -/
def exactToken? (argument : Text.Points) : Option Token :=
  match Switch.ofSpelling? argument.plain, splitEquals argument with
  | some switch, _ => some (.switch switch argument.plain none)
  | none, (start, some value) =>
    let spelling := String.ofList start
    (Switch.ofSpelling? spelling).map fun switch => .switch switch spelling (some value)
  | none, _ => none

/-- What an argument before two dashes is taken for. -/
def classify (argument : Text.Points) : Except UsageError Token :=
  match argument.chars with
  | '-' :: second :: rest =>
    let cs := '-' :: second :: rest
    match exactToken? argument, candidates argument with
    | some token, _ => .ok token
    | none, [token] => .ok token
    | none, [] =>
      .ok (if isNegativeNumber cs || cs.contains ' ' then .plain argument else .unknown argument)
    | none, tokens => .error (.ambiguous argument (tokens.filterMap (·.spelling?)))
  | _ => .ok (.plain argument)

def classifyAll : List Text.Points → Except UsageError (List Token)
  | [] => .ok []
  | argument :: rest =>
    if argument = "--" then .ok (.dashes :: rest.map .plain)
    else do
      let token ← classify argument
      return token :: (← classifyAll rest)

/-- What has been read of the arguments: what they ask for, what is left over, and whether the
program has had its turn. -/
structure Reading where
  found : Arguments := {}
  leftOver : List Text.Points := []
  programRead : Bool := false

/-- How reading can end before its end. -/
inductive Interruption where
  | help
  | error (e : UsageError)

def setValue (args : Arguments) (switch : Switch) (value : Text.Points) :
    Except Interruption Arguments :=
  let number (set : Float → Arguments) : Except Interruption Arguments :=
    match readFloat? value with
    | some x => .ok (set x)
    | none => .error (.error (.badNumber switch value))
  match switch with
  | .pattern => .ok { args with pattern := some value }
  | .tools => .ok { args with tools := some (.ofText value) }
  | .settings => .ok { args with settings := some (.ofText value) }
  | .saveTo => .ok { args with saveTo := .value (.ofText value) }
  | .width => number fun x => { args with width := .value x }
  | .height => number fun x => { args with height := .value x }
  | .interval => number fun x => { args with interval := .value x }
  | .seek =>
    match readInt? value with
    | some n => .ok { args with seek := .value n }
    | none => .error (.error (.badWholeNumber switch value))
  | _ => .ok args

/-- Takes a switch that has two dashes instead of a value. -/
def setVoid (args : Arguments) : Switch → Arguments
  | .pattern => { args with pattern := none }
  | .tools => { args with tools := none }
  | .settings => { args with settings := none }
  | .saveTo => { args with saveTo := .void }
  | .width => { args with width := .void }
  | .height => { args with height := .void }
  | .interval => { args with interval := .void }
  | .seek => { args with seek := .void }
  | _ => args

def setFlag (args : Arguments) : Switch → Except Interruption Arguments
  | .help => .error .help
  | .listPatterns => .ok { args with listPatterns := true }
  | .listTools => .ok { args with listTools := true }
  | .check => .ok { args with check := true }
  | .verbose => .ok { args with verbose := true }
  | _ => .ok args

def isShort (spelling : String) : Bool :=
  match spelling.toList with
  | _ :: second :: _ => second != '-'
  | _ => false

/-- Reads what follows a short switch in its argument: the letters of more short switches. Nothing is
taken before the whole argument is understood. -/
def readBundle (spelling : String) (switch : Switch) :
    List Text.Point → Except Interruption (List Switch)
  | p :: rest =>
    let next := String.ofList ['-', p.replacement]
    match isShort spelling, Switch.ofSpelling? next, rest with
    | true, some other, [] => .ok [switch, other]
    | true, some other, _ => (readBundle next other rest).map (switch :: ·)
    | _, _, _ => .error (.error (.valueIgnored switch ⟨p :: rest⟩))
  | [] => .error (.error (.valueIgnored switch ""))

/-- Reads a switch with something attached to it. -/
def readAttached (r : Reading) (switch : Switch) (spelling : String) (attached : Text.Points) :
    Except Interruption Reading :=
  if !switch.takesValue then do
    return { r with
      found := ← (← readBundle spelling switch attached.toList).foldlM setFlag r.found }
  else if attached = "--" then .ok { r with found := setVoid r.found switch }
  else do return { r with found := ← setValue r.found switch attached }

def plainTexts (tokens : List Token) : List Text.Points := tokens.map (·.text)

/-- Whether a token is a switch, known or not. -/
def Token.isSwitch : Token → Bool
  | .switch .. => true
  | .unknown _ => true
  | _ => false

/-- Reads what stands after the last switch: the program, with or without two dashes around it, and
what is left over. -/
def readTail (r : Reading) (tokens : List Token) : Reading :=
  let take (argument : Text.Points) (rest : List Token) : Reading :=
    { found := { r.found with program := some (.ofText argument) }, programRead := true
      leftOver := r.leftOver ++ plainTexts rest }
  let leave (rest : List Token) : Reading := { r with leftOver := r.leftOver ++ plainTexts rest }
  if r.programRead then leave tokens
  else
    match tokens with
    | .dashes :: .plain argument :: rest => take argument rest
    | .plain argument :: .dashes :: rest => take argument rest
    | .plain argument :: rest => take argument rest
    | .dashes :: rest => leave rest
    | rest => leave rest

/-- Reads tokens. Of the arguments before the last switch that belong to no switch, the first is the
program and the others are left over. -/
def readTokens (r : Reading) : List Token → Except Interruption Reading
  | [] => .ok r
  | .unknown argument :: rest => readTokens { r with leftOver := r.leftOver ++ [argument] } rest
  | .switch switch spelling (some attached) :: rest => do
    readTokens (← readAttached r switch spelling attached) rest
  | .switch switch _ none :: rest =>
    if switch.takesValue then
      match rest with
      | .plain value :: rest => do
        readTokens { r with found := ← setValue r.found switch value } rest
      | _ => .error (.error (.valueMissing switch))
    else do readTokens { r with found := ← setFlag r.found switch } rest
  | token :: rest =>
    if !rest.any (·.isSwitch) then .ok (readTail r (token :: rest))
    else if r.programRead then
      readTokens { r with leftOver := r.leftOver ++ [token.text] } rest
    else
      readTokens
        { r with found := { r.found with program := some (.ofText token.text) }
                 programRead := true } rest

def readArguments (arguments : List Text.Points) : Except Interruption Arguments :=
  match classifyAll arguments with
  | .error e => .error (.error e)
  | .ok tokens => do
    let r ← readTokens {} tokens
    if r.leftOver.isEmpty then return r.found else .error (.error (.unrecognized r.leftOver))

end TurretPunch.CommandLine
