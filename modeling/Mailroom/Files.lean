import Mailroom.Database.Schema
/-!
Files in a tree of directories, and how a path leads to one.

A path is walked from the root, directory by directory: `.` and empty parts stay, `..` goes up, and
every other part names an entry. `Files.readText` and `Files.writeText` read and write whole text
files. What writes is a computation with the files as its state, which leaves files also where it
fails.
-/

namespace Mailroom

/-- What a file holds. -/
inductive FileBody where
  | octets (octets : Octets)
  | database (database : Database)
deriving Inhabited

/-- Why a file cannot be read or written. -/
inductive FileError where
  | notFound
  | isDirectory
  | notDirectory
  /-- The file holds no text. -/
  | invalidData
  /-- The path has the character with code 0. -/
  | invalidInput
  /-- The path, or a name in it, is too long. -/
  | tooLong
deriving DecidableEq, Repr

/-- The name of an error. -/
def FileError.name : FileError → String
  | notFound => "NotFound"
  | isDirectory => "IsADirectory"
  | notDirectory => "NotADirectory"
  | invalidData => "InvalidData"
  | invalidInput => "InvalidInput"
  | tooLong => "InvalidFilename"

/-- The names that lead from the root to an entry. -/
abbrev Location := List String

/-- Directories and files. -/
structure Files where
  directories : List Location := []
  bodies : List (Location × FileBody) := []
deriving Inhabited

/-- What stands at the end of a path. -/
inductive Spot where
  | directory (location : Location)
  | file (location : Location) (body : FileBody)
  /-- Nothing, in a directory that exists. -/
  | vacant (location : Location)
deriving Inhabited

namespace Files

/-- Whether a location is a directory; the root is one. -/
def isDirectory (files : Files) (location : Location) : Bool :=
  location.isEmpty || files.directories.contains location

/-- What the file at a location holds. -/
def body? (files : Files) (location : Location) : Option FileBody := files.bodies.lookup location

/-- Creates a directory, and those that lead to it. -/
def makeDirectory (files : Files) (location : Location) : Files :=
  let ancestors := (List.range (location.length + 1)).map fun n => location.take n
  { files with
    directories := files.directories ++ ancestors.filter fun l => !files.directories.contains l }

/-- Puts a body at a location, in place of the one that was there. -/
def put (files : Files) (location : Location) (body : FileBody) : Files :=
  { files with bodies := (location, body) :: files.bodies.filter fun entry => entry.1 ≠ location }

/-- The greatest length of a name, in octets. -/
def maxName : Nat := 255

/-- The greatest length of a path, in octets. -/
def maxPath : Nat := 4095

/-- The parts of a path. -/
def parts (path : String) : List String := (path.toList.splitOn '/').map String.ofList

/-- Walks from a directory along the parts of a path. -/
def walk (files : Files) : Location → List String → Except FileError Spot
  | location, [] => .ok (.directory location)
  | location, part :: rest =>
    if part = "" ∨ part = "." then files.walk location rest
    else if part = ".." then files.walk location.dropLast rest
    else
      let next := location ++ [part]
      if files.isDirectory next then files.walk next rest
      else if maxName < part.utf8ByteSize then .error .tooLong
      else
        match files.body? next with
        | some body => if rest.isEmpty then .ok (.file next body) else .error .notDirectory
        | none => if rest.isEmpty then .ok (.vacant next) else .error .notFound

/-- What stands at a path, some of whose parts are to be walked. -/
def findParts (files : Files) (path : String) (named : List String) : Except FileError Spot :=
  if path.toList.contains '\x00' then .error .invalidInput
  else if maxPath < path.utf8ByteSize then .error .tooLong
  else files.walk [] named

/-- What stands at a path. -/
def find (files : Files) (path : String) : Except FileError Spot :=
  files.findParts path (parts path)

/-- Whether a path leads to a directory or a file. -/
def has (files : Files) (path : String) : Bool :=
  match files.find path with
  | .ok (.directory _) => true
  | .ok (.file _ _) => true
  | _ => false

/-- The text of a file. -/
def readText (files : Files) (path : String) : Except FileError String := do
  match ← files.find path with
  | .directory _ => throw .isDirectory
  | .vacant _ => throw .notFound
  | .file _ (.database _) => throw .invalidData
  | .file _ (.octets octets) =>
    match String.fromUTF8? ⟨octets.toArray⟩ with
    | some text => return text
    | none => throw .invalidData

/-- Writes a text file, in place of the file that was there. A path that ends in a separator names a
directory, whether or not there is one. A path that does not lead to a place for a file changes no
file. -/
def writeText (path text : String) : EStateM FileError Files Unit := fun files =>
  let named := ((parts path).reverse.dropWhile (· = "")).reverse
  match files.findParts path named with
  | .error e => .error e files
  | .ok (.directory _) => .error .isDirectory files
  | .ok (.file location _) | .ok (.vacant location) =>
    if path.endsWith "/" then .error .isDirectory files
    else .ok () (files.put location (.octets text.toUTF8.toList))

end Files

/-- Appends a path to a directory; an absolute path stands for itself. -/
def joinPath (directory path : String) : String :=
  if path.startsWith "/" then path
  else if directory.isEmpty || directory.endsWith "/" then directory ++ path
  else directory ++ "/" ++ path

end Mailroom
