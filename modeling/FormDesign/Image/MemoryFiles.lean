import FormDesign.Image.Cache

/-!
# Image files in memory

Image files that are held in memory with the time of their last change, in place of files on a disk.
Some paths may be damaged: such a file is known, but its bytes cannot be read.
-/

namespace FormDesign

structure MemoryFiles where
  /-- Path, bytes and modification time, each path at most once. -/
  files : List (String × List UInt8 × Int)
  /-- The paths that cannot be read, each once. -/
  damaged : List String

namespace MemoryFiles

def empty : MemoryFiles := { files := [], damaged := [] }

/-- Sets the bytes and the time of a file. -/
def put (m : MemoryFiles) (path : String) (bytes : List UInt8) (time : Int) : MemoryFiles :=
  { m with files := (path, bytes, time) :: m.files.filter fun (p, _) => p != path }

/-- Removes a file. -/
def remove (m : MemoryFiles) (path : String) : MemoryFiles :=
  { m with files := m.files.filter fun (p, _) => p != path }

def isDamaged (m : MemoryFiles) (path : String) : Bool :=
  m.damaged.contains path

/-- Makes a path unreadable, whether there is a file or not. -/
def damage (m : MemoryFiles) (path : String) : MemoryFiles :=
  if m.isDamaged path then m else { m with damaged := path :: m.damaged }

/-- Makes a path readable again. -/
def mend (m : MemoryFiles) (path : String) : MemoryFiles :=
  { m with damaged := m.damaged.filter (· != path) }

/-- Bytes and time of a file. -/
def file? (m : MemoryFiles) (path : String) : Option (List UInt8 × Int) :=
  (m.files.find? fun (p, _) => p == path).map Prod.snd

/-- The files as a source of images. A damaged path without a file has the time 0. -/
def source (m : MemoryFiles) : FileSource where
  modified path :=
    match m.file? path with
    | some (_, time) => some time
    | none => if m.isDamaged path then some 0 else none
  load path :=
    if m.isDamaged path then .error "cannot be read"
    else
      match m.file? path with
      | some (bytes, _) => .ok bytes
      | none => .error path

end MemoryFiles

end FormDesign
