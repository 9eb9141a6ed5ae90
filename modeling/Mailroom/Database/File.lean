import Mailroom.Database.Image.Description
import Mailroom.Database.Migration
import Mailroom.Database.Store
import Mailroom.StartupError
/-!
Databases in files: opening one, which creates the file if need be, and probing one, which leaves it
alone.

The engine reads a path by its text: `..` takes back the part before it, whether or not that is a
directory. But it looks up what is named on the way, and refuses what lies below a file, what has a
name that is too long, and a path without room for the names of the files that it keeps beside the
database. A file of one octet counts as empty.
-/

namespace Mailroom.Database

/-- The location that a path names. -/
def locationOf (path : String) : Location :=
  (Files.parts path).foldl (fun location part =>
    if part = "" ∨ part = "." then location
    else if part = ".." then location.dropLast
    else location ++ [part]) []

/-- The greatest length of a path, in octets. -/
def maxPath : Nat := 512

/-- The end of the name of the file with what is to be rolled back. -/
def journalEnding : String := "-journal"

/-- The length of a location as a path, in octets. -/
def pathSize (location : Location) : Nat :=
  location.foldl (fun size part => size + part.utf8ByteSize + 1) 0

/-- Whether a part can be looked up at a location. -/
def canLookUp (files : Files) (location : Location) (part : String) : Bool :=
  let above := (List.range (location.length + 1)).map fun n => location.take n
  (above.all fun l => (files.body? l).isNone)
    && (part.utf8ByteSize ≤ Files.maxName || !files.isDirectory location)

/-- The location that a path leads to; it is not the root. -/
def locate? (files : Files) (path : String) : Option Location := do
  let location ← (Files.parts path).foldlM (fun location part =>
    if part = "" ∨ part = "." then some location
    else if part = ".." then some location.dropLast
    else
      let next := location ++ [part]
      if pathSize next < maxPath && canLookUp files location part then some next else none) []
  if location.isEmpty || maxPath < pathSize location + journalEnding.utf8ByteSize then none
  else some location

/-- The position of the character with code 0 in a path, in octets. -/
def nulPosition? (path : String) : Option Nat :=
  let octets := path.toUTF8.toList
  if octets.contains 0 then some (octets.idxOf 0) else none

/-- What a file of octets holds: a database, and whether it can be changed as it is to be. -/
def readOctets (octets : Octets) : Except EngineError (Option Image × Database) :=
  if octets.length ≤ 1 then .ok (none, blank)
  else do
    let image ← Image.ofOctets octets.toArray
    return (some image, image.database (← image.entries))

/-- How many octets the entries of the relations take that are still to be created. -/
def neededRoom (version : Int) : Nat := if version = 0 then 2946 else 1029

/-- The database cannot be brought up to date. -/
def notMigrated : StartupError := { during := Activity.migrateDatabase, cause := .migration }

/-- The store of a database that was opened and is brought up to date. -/
def Store.open (db : Database) (path : String) (listBound : Nat) : Except StartupError Store :=
  match migrate? db with
  | some database => .ok { database, path, listBound := max listBound 1 }
  | none => .error notMigrated

/-- Closes a store and opens it again. If the file was moved away a new one takes its place, and a
lock stays with the moved file. A database that is locked cannot be brought up to date. -/
def Store.reopen (store : Store) : Except StartupError Store :=
  if store.fileMoved then Store.open blank store.path store.listBound
  else if store.lockedOut ∧ store.database.version ≠ schemaVersion then .error notMigrated
  else
    (Store.open store.database store.path store.listBound).map fun opened =>
      { opened with lockedOut := store.lockedOut }

/-- The database that is to be brought up to date in a file of octets. The name of the file must
leave room for the one with what is to be rolled back. A file that cannot be changed is refused as
soon as it has to be: to keep a log from now on, or to create relations. -/
def openOctets (name : String) (octets : Octets) : Except StartupError Database :=
  let refuse (e : EngineError) : Except StartupError Database :=
    .error { during := some .configureDatabase, cause := .database e }
  match readOctets octets with
  | .error e => refuse e
  | .ok (image, db) =>
    if Files.maxName < name.utf8ByteSize + journalEnding.utf8ByteSize then
      refuse (.unableToOpen name)
    else
      match image with
      | none => .ok db
      | some image =>
        let isPending := db.version < schemaVersion
        if image.isReadOnly && !image.hasLog then refuse .writeRefused
        else if !image.admitsCuts && !image.hasLog then refuse .malformedImage
        else if isPending && (image.isReadOnly || !image.admitsCuts
            || !image.admitsRelations (neededRoom db.version)) then .error notMigrated
        else .ok db

/-- Opens the database in a file, an empty one if there is no file in the directory. -/
def Store.openFile (files : Files) (path : String) (listBound : Nat) :
    Except StartupError (Store × Files) := do
  let refused (e : EngineError) : StartupError :=
    { during := Activity.openDatabase path, cause := .database e }
  match nulPosition? path, locate? files path with
  | some position, _ => throw (refused (.nulInPath position))
  | none, none => throw (refused (.unableToOpen path))
  | none, some location =>
    if files.isDirectory location || !files.isDirectory location.dropLast then
      throw (refused (.unableToOpen path))
    let db ←
      match files.body? location with
      | none => openOctets (location.getLastD "") []
      | some (.octets octets) => openOctets (location.getLastD "") octets
      | some (.database db) => pure db
    let store ← Store.open db path listBound
    return (store, files.put location (.database store.database))

/-- Reads a database in a file, without creating one. -/
def probe (files : Files) (path : String) : Except EngineError Unit :=
  match nulPosition? path, locate? files path with
  | some position, _ => .error (.nulInPath position)
  | none, none => .error (.unableToOpen path)
  | none, some location =>
    if files.isDirectory location then .error .diskError
    else
      match files.body? location with
      | none => .error (.unableToOpen path)
      | some (.octets octets) => (readOctets octets).map fun _ => ()
      | some (.database _) => .ok ()

/-- Reports whether the database in a file can be read. -/
def fileHealth (files : Files) (path : String) : HealthReport :=
  .ofProbe Store.component ((probe files path).mapError EngineError.toStoreError)

end Mailroom.Database
