import FormDesign.Image.Cache
import FormDesign.Project.Disk.Node
import FormDesign.Project.Writer
import FormDesign.Text.FilePath

/-!
# Disks

A tree of files and directories, and the directory in it that relative paths start at. Paths are
walked component by component from the top: every component but the last must lead into a directory
that exists, so a path through a missing directory is not found even if it comes back out again. Two
dots lead to the directory above, also out of the directory that relative paths start at.

The writer of a disk makes missing directories and leaves files alone that have the right content
already. The directory that relative paths start at need not exist: the first file that is written
there makes it, with all that is missing above it.
-/

namespace FormDesign

structure Disk where
  /-- The topmost directory. -/
  top : Disk.Node
  /-- The names that lead from the top to the directory that relative paths start at, whether or not
  it exists. -/
  home : Disk.Place

/-- Why a path cannot be followed, or a file not be used. -/
inductive Disk.Fault
  | notFound
  | notADirectory
  | isADirectory
  | badName
  deriving DecidableEq

namespace Disk

/-- What a fault is called in messages. -/
def Fault.message : Fault → String
  | .notFound => "not found"
  | .notADirectory => "not a directory"
  | .isADirectory => "is a directory"
  | .badName => "not a valid file name"

/-! ## Places -/

/-- A disk with an empty directory for relative paths, and nothing else. -/
def empty (home : Place) : Disk :=
  { top := .directory "" (home.foldr (fun name ns => [.directory name ns]) []), home }

/-- A disk with nothing on it, so that the directory for relative paths is missing. -/
def bare (home : Place) : Disk :=
  { top := .directory "" [], home }

/-- What stands at a place. -/
def get? (d : Disk) (p : Place) : Option Entry :=
  d.top.get? p

/-- Puts a file or an empty directory into the directory at a place. -/
def put (d : Disk) (p : Place) (name : String) (e : Entry) : Disk :=
  { d with top := d.top.update (Node.insert (.ofEntry name e)) p }

/-- Removes what has a name from the directory at a place. -/
def erase (d : Disk) (p : Place) (name : String) : Disk :=
  { d with top := d.top.update (Node.erase name) p }

/-- What is below the directory that relative paths start at. -/
def contents (d : Disk) : List (Place × Entry) :=
  match d.top.at? d.home with
  | some n => n.inside
  | none => []

theorem get?_put {d : Disk} {p : Place} {name : String} (e : Entry)
    (inside : d.get? p = some .directory) (free : d.get? (p ++ [name]) ≠ some .directory)
    (q : Place) :
    (d.put p name e).get? q = if q = p ++ [name] then some e else d.get? q :=
  Node.get?_update_insert e inside free q

theorem get?_erase {d : Disk} {p : Place} {name : String}
    (free : d.get? (p ++ [name]) ≠ some .directory) (q : Place) :
    (d.erase p name).get? q = if q = p ++ [name] then none else d.get? q :=
  Node.get?_update_erase free q

/-! ## Paths -/

/-- How many bytes the name of a file may have. -/
def maxNameBytes : Nat := 255

/-- How many bytes a path may have from the top on. -/
def maxPathBytes : Nat := 4095

/-- Whether a path starts at the top of the disk. -/
def isAbsolute (path : String) : Bool :=
  Text.startsWith path "/"

/-- Where a path starts. -/
def start (d : Disk) (path : String) : Place :=
  if isAbsolute path then [] else d.home

/-- How many bytes stand before a path when it is written from the top on. -/
def startBytes (d : Disk) (path : String) : Nat :=
  if isAbsolute path then 0 else d.home.foldl (fun n name => n + name.utf8ByteSize + 1) 1

/-- Whether a path can be followed at all. -/
def isPath (d : Disk) (path : String) : Bool :=
  !path.toList.contains '\x00' && d.startBytes path + path.utf8ByteSize ≤ maxPathBytes

/-- Follows one component of a path from a place, which must be a directory. An empty component and
a single dot stay there, and two dots lead back. -/
def enter (d : Disk) (p : Place) (component : String) : Except Fault Place :=
  match d.get? p with
  | none => .error .notFound
  | some (.file _) => .error .notADirectory
  | some .directory =>
    if component = "" || component = "." then .ok p
    else if component = ".." then .ok p.dropLast
    else if component.utf8ByteSize ≤ maxNameBytes then .ok (p ++ [component])
    else .error .badName

/-- Follows components from a place. The last one may lead to a place where nothing is. -/
def follow (d : Disk) (p : Place) : List String → Except Fault Place
  | [] => .ok p
  | component :: rest =>
    match d.enter p component with
    | .ok q => d.follow q rest
    | .error fault => .error fault

/-- The components that lead along a path, from the top of the disk. -/
def route (d : Disk) (path : String) : List String :=
  d.start path ++ Text.splitOn '/' path

/-- The place that a path leads to. -/
def locate (d : Disk) (path : String) : Except Fault Place :=
  if d.isPath path then d.follow [] (d.route path) else .error .badName

/-! ## Files -/

/-- The bytes of a file. -/
def read (d : Disk) (path : String) : Except Fault (List UInt8) :=
  match d.locate path with
  | .error fault => .error fault
  | .ok p =>
    match d.get? p with
    | none => .error .notFound
    | some .directory => .error .isADirectory
    | some (.file bytes) => .ok bytes

/-- Writes a file in a directory that exists. -/
def writeFile (d : Disk) (path : String) (bytes : List UInt8) : Except Fault Disk :=
  match d.locate path with
  | .error fault => .error fault
  | .ok p =>
    match d.get? p, p.getLast? with
    | some .directory, _ | _, none => .error .isADirectory
    | _, some name => .ok (d.put p.dropLast name (.file bytes))

/-- Removes a file. -/
def removeFile (d : Disk) (path : String) : Except Fault Disk :=
  match d.locate path with
  | .error fault => .error fault
  | .ok p =>
    match d.get? p, p.getLast? with
    | none, _ => .error .notFound
    | some .directory, _ | _, none => .error .isADirectory
    | _, some name => .ok (d.erase p.dropLast name)

/-! ## Directories -/

/-- Makes the directories that components lead through from a place. Those made before a failure
stay. -/
def makeDirectories (d : Disk) (p : Place) : List String → Except Fault Unit × Disk
  | [] => (.ok (), d)
  | component :: rest =>
    match d.enter p component with
    | .error fault => (.error fault, d)
    | .ok q =>
      match d.get? q with
      | none => (d.put p component .directory).makeDirectories q rest
      | some .directory => d.makeDirectories q rest
      | some (.file _) => (.error .notADirectory, d)

/-- Whether the last component of a path is a single dot, slashes after it aside. -/
def endsInDot (path : String) : Bool :=
  ((Text.splitOn '/' path).filter (· ≠ "")).getLast? = some "."

/-- The components that directories are made for along a path, from the top of the disk. -/
def directoryNames (d : Disk) (path : String) : List String :=
  d.start path ++ Text.FilePath.components path

/-- Makes a directory and those above it. A path that ends in a dot asks for a directory that
exists, so only those above it are made. -/
def makeDirectory (d : Disk) (path : String) : Except Fault Unit × Disk :=
  if !d.isPath path then (.error .badName, d)
  else if endsInDot path then
    match d.makeDirectories [] (d.directoryNames path).dropLast with
    | (.ok (), d) => ((d.locate path).map fun _ => (), d)
    | (.error fault, d) => (.error fault, d)
  else d.makeDirectories [] (d.directoryNames path)

/-- Makes the directories above a path: the one that relative paths start at and those above it too,
where they are missing. -/
def makeParents (d : Disk) (path : String) : Except Fault Unit × Disk :=
  d.makeDirectories [] (d.directoryNames path).dropLast

/-! ## Writing and reading generated files -/

/-- Puts a file on the disk unless it has this content. -/
def save (d : Disk) (path : String) (bytes : List UInt8) : Except Fault ResultCode × Disk :=
  let put (d : Disk) : Except Fault ResultCode × Disk :=
    match d.writeFile path bytes with
    | .ok d => (.ok .created, d)
    | .error fault => (.error fault, d)
  match d.read path with
  | .ok old => if old = bytes then (.ok .alreadyExists, d) else put d
  | .error .notFound =>
    match d.makeParents path with
    | (.ok (), d) => put d
    | (.error fault, d) => (.error fault, d)
  | .error fault => (.error fault, d)

/-- Writes generated files to the disk. -/
def write : Writer Disk := fun file d =>
  match d.save file.fullPath file.content.toUTF8.toList with
  | (.ok code, d) => (.ok code, d)
  | (.error fault, d) => (.error { path := file.fullPath, reason := fault.message }, d)

/-- The path of a file as it is seen from the directory that relative paths start at, without what
only names that directory in front. -/
def relativePath (path : String) : String :=
  if isAbsolute path then path else String.ofList (go path.toList)
where
  /-- Skips slashes and single dots in front. -/
  go : List Char → List Char
    | '/' :: rest => go rest
    | ['.'] => []
    | '.' :: '/' :: rest => go rest
    | s => s

/-- The image files of a disk, all of them of one age. -/
def source (d : Disk) : FileSource where
  modified path :=
    match d.locate path with
    | .ok p => (d.get? p).map fun _ => 0
    | .error _ => none
  load path :=
    match d.read path with
    | .ok bytes => .ok bytes
    | .error fault => .error fault.message

end Disk

end FormDesign
