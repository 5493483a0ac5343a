import TurretPunch.Fault
import TurretPunch.Storage.Path
import TurretPunch.Text.Line

namespace TurretPunch

/-!
# Storage

Files and folders below a starting folder. Every file and folder has one place, which is the list of
the names on the way to it, each in its usual spelling; a path leads to a place by way of the folders
that are there.
-/

/-- What is at a place. -/
inductive Entry where
  | file (content : List UInt8)
  | folder
deriving DecidableEq, Repr

/-- The files and folders by place. The starting folder is always there. -/
structure Storage where
  entries : List (List Text.Points × Entry)
deriving Repr

namespace Storage

def empty : Storage := ⟨[]⟩

/-- Whether a place is the starting folder or above it. Above it there are only folders. -/
def isAbove (place : List Text.Points) : Bool := place.all fun name => name == ".."

def isAsLong {α : Type} : List α → List α → Bool
  | [], [] => true
  | _ :: xs, _ :: ys => isAsLong xs ys
  | _, _ => false

theorem isAsLong_self {α : Type} (xs : List α) : isAsLong xs xs = true := by
  induction xs with
  | nil => rfl
  | cons x xs ih => exact ih

/-- Whether two places are one. Their lengths are compared first, since places often have a long way in
common. -/
def isPlace (place other : List Text.Points) : Bool := isAsLong place other && place == other

@[simp] theorem isPlace_iff {place other : List Text.Points} :
    isPlace place other = true ↔ place = other := by
  constructor
  · intro h
    exact eq_of_beq (Bool.and_eq_true_iff.1 h).2
  · rintro rfl
    simp [isPlace, isAsLong_self]

/-- What has been put at a place. -/
def kept? (s : Storage) (place : List Text.Points) : Option Entry :=
  (s.entries.find? fun (other, _) => isPlace place other).map (·.2)

def get? (s : Storage) (place : List Text.Points) : Option Entry :=
  if isAbove place then some .folder else s.kept? place

/-- Puts something at a place where there is nothing. -/
def add (s : Storage) (place : List Text.Points) (entry : Entry) : Storage :=
  ⟨s.entries ++ [(place, entry)]⟩

/-- Puts something at a place, instead of what is there. -/
def set (s : Storage) (place : List Text.Points) (entry : Entry) : Storage :=
  if (s.kept? place).isSome then
    ⟨s.entries.map fun (other, old) => if isPlace place other then (other, entry) else (other, old)⟩
  else s.add place entry

/-- The place to which a name leads from a folder. Two dots lead out of it. -/
def leadFrom (place : List Text.Points) (name : Text.Points) : List Text.Points :=
  if name = ".." ∧ !isAbove place then place.dropLast else place ++ [Path.spelled name]

/-- The place to which a name leads from another place, which must be a folder. -/
def enter (s : Storage) (place : List Text.Points) (name : Text.Points) :
    Except Fault (List Text.Points) :=
  match s.get? place with
  | some .folder => if Path.isLongName name then .error .nameTooLong else .ok (leadFrom place name)
  | some (.file _) => .error .notDirectory
  | none => .error .noSuchFile

/-- Why no file can have a path, if that is so. -/
def problem? (path : Path) : Option Fault :=
  if path.isNamelessPath then some .unencodable
  else if path.hasNull then some .nullInPath
  else if path.isLong then some .nameTooLong
  else none

/-- The place to which a path leads. There need not be anything there yet. -/
def resolve (s : Storage) (path : Path) : Except Fault (List Text.Points) :=
  match problem? path with
  | some fault => .error fault
  | none => path.names.foldlM s.enter []

/-- What a path leads to. Nothing is where a path leads nowhere, but for one that is too long it is
not known. -/
def find? (s : Storage) (path : Path) : Except Fault (Option Entry) :=
  match s.resolve path with
  | .ok place => .ok (s.get? place)
  | .error .nameTooLong => .error .nameTooLong
  | .error _ => .ok none

/-- Whether there is something where a path leads. -/
def contains (s : Storage) (path : Path) : Except Fault Bool := (s.find? path).map (·.isSome)

def isFolder (s : Storage) (path : Path) : Except Fault Bool :=
  (s.find? path).map (· == some .folder)

def read (s : Storage) (path : Path) : Except Fault (List UInt8) := do
  match s.get? (← s.resolve path) with
  | some (.file content) => return content
  | some .folder => .error .isDirectory
  | none => .error .noSuchFile

/-- Reads a file as a text, whatever its lines end with. -/
def readText (s : Storage) (path : Path) : Except Fault (List Char) := do
  match Text.decodeUtf8 (← s.read path) with
  | .ok cs => return Text.unifyNewlines cs
  | .error e => .error (.undecodable e)

/-- Writes a file, instead of one that is there. -/
def write (s : Storage) (path : Path) (content : List UInt8) : Except Fault Storage := do
  let place ← s.resolve path
  match s.get? place with
  | some .folder => .error .isDirectory
  | _ => return s.set place (.file content)

/-- How many folders can be made in one go. -/
def maxNewFolders : Nat := 990

/-- Makes a folder at each place on the way of names from a folder, where there is nothing. The folders
that are made before a fault stay. A file in the way is met as such at the end of the way and after
folders were made, before that the way does not lead on from it. -/
def makeFoldersFrom (s : Storage) (made : Bool) (place : List Text.Points) :
    List Text.Points → Storage × Except Fault Unit
  | [] => (s, .ok ())
  | name :: rest =>
    if Path.isLongName name then (s, .error .nameTooLong)
    else
      let next := leadFrom place name
      match s.get? next with
      | some .folder => s.makeFoldersFrom made next rest
      | some (.file _) =>
        (s, .error (if made || rest.isEmpty then .fileInTheWay else .notDirectory))
      | none =>
        if maxNewFolders ≤ rest.length then (s, .error .deepNesting)
        else (s.add next .folder).makeFoldersFrom true next rest

/-- Makes a folder and the folders on the way to it, as far as they are not there. -/
def ensureFolders (s : Storage) (path : Path) : Storage × Except Fault Unit :=
  match problem? path with
  | some fault => (s, .error fault)
  | none => s.makeFoldersFrom false [] path.names

/-- What comes of an attempt and the storage after it, unless it fails. -/
def completed {α : Type} : Storage × Except Fault α → Except Fault (Storage × α)
  | (s, .ok value) => .ok (s, value)
  | (_, .error fault) => .error fault

/-- Puts in a file or a folder together with the folders on the way to it. -/
def plant (s : Storage) (path : Path) : Entry → Except Fault Storage
  | .folder => (completed (s.ensureFolders path)).map (·.1)
  | .file content => do
    let (grown, _) ← completed (s.ensureFolders path.parent)
    grown.write path content

/-- The files that were not in a storage before, or not with this content. -/
def changesSince (before after : Storage) : List (Path × List UInt8) :=
  after.entries.filterMap fun (place, entry) =>
    match entry with
    | .file content => if before.get? place = some entry then none else some (⟨place⟩, content)
    | .folder => none

end Storage

end TurretPunch
