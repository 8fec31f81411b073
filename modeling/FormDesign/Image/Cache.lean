import FormDesign.Fault
import FormDesign.Image.ArrayName

/-!
# The image cache

Image files that are embedded in generated source are read once and shared by every form. The cache
remembers the bytes together with the modification time they were read at; a file that changed is
read again when the next form embeds it. A file that went away keeps its bytes.
-/

namespace FormDesign

/-- Where the bytes of image files come from. -/
structure FileSource where
  /-- The modification time of a file, if there is one. -/
  modified : String → Option Int
  /-- The bytes of a file, or the reason why they cannot be read. -/
  load : String → Except String (List UInt8)

/-- An image file whose bytes are embedded. -/
structure Asset where
  /-- The identity of the asset in its cache. -/
  id : Nat
  /-- The path as the property gives it. -/
  filename : String
  arrayName : String
  kind : ImageKind
  payload : List UInt8
  /-- The modification time of the file when its bytes were last read. -/
  sourceTime : Option Int
  deriving DecidableEq

/-- The assets read so far, in the order of first reading. -/
structure Cache where
  assets : List Asset

namespace Cache

def empty : Cache := { assets := [] }

def size (c : Cache) : Nat := c.assets.length

/-- The asset of a file that was read before. -/
def get? (c : Cache) (filename : String) : Option Asset :=
  c.assets.find? fun a => a.filename == filename

/-- The asset with the given identity, with its bytes as they are now. -/
def asset? (c : Cache) (id : Nat) : Option Asset :=
  c.assets.find? fun a => a.id == id

/-- The asset for a description, read now unless it was read before. There is none when the kind is
not embedded or the file does not exist. -/
def resolve (source : FileSource) (d : ImageDescription) (c : Cache) :
    Except Fault (Option Asset) × Cache :=
  if !d.kind.isEmbedded then (.ok none, c)
  else
    match c.get? d.path with
    | some a => (.ok (some a), c)
    | none =>
      match source.modified d.path with
      | none => (.ok none, c)
      | some time =>
        match source.load d.path with
        | .error reason => (.error (.unreadable d.path reason), c)
        | .ok payload =>
          let name := FormDesign.arrayName d.path
          match c.assets.find? fun a => a.arrayName == name with
          | some first => (.error (.arrayNameConflict first.filename d.path name), c)
          | none =>
            let a : Asset :=
              { id := c.size, filename := d.path, arrayName := name, kind := d.kind, payload,
                sourceTime := some time }
            (.ok (some a), { assets := c.assets ++ [a] })

/-- The asset for the text of an image property. -/
def resolveText (source : FileSource) (text : String) (c : Cache) :
    Except Fault (Option Asset) × Cache :=
  match ImageDescription.parse text with
  | .error reason => (.error (.badDescription text reason), c)
  | .ok d => c.resolve source d

/-- Whether the file of an asset changed after its bytes were read. -/
def isStale (source : FileSource) (a : Asset) : Bool :=
  match source.modified a.filename with
  | some time => a.sourceTime ≠ some time
  | none => false

/-- Reads the bytes of an asset again. -/
def reread (source : FileSource) (id : Nat) (c : Cache) : Except Fault Unit × Cache :=
  match c.asset? id with
  | none => (.ok (), c)
  | some a =>
    match source.load a.filename with
    | .error reason => (.error (.unreadable a.filename reason), c)
    | .ok payload =>
      let time := source.modified a.filename
      let update (b : Asset) : Asset :=
        if b.id = id then { b with payload, sourceTime := time } else b
      (.ok (), { assets := c.assets.map update })

end Cache

/-! ## The images of one form -/

/-- The identities of the images that a form embeds, in the order of first use. -/
abbrev Embedded := List Nat

namespace Embedded

/-- Adds an asset to the images of a form. A stale asset that is new to the form is read again
first. Tells whether the asset was added. -/
def add (source : FileSource) (a : Asset) (images : Embedded) (c : Cache) :
    Except Fault (Bool × Embedded) × Cache :=
  if images.contains a.id then (.ok (false, images), c)
  else if Cache.isStale source a then
    match c.reread source a.id with
    | (.error fault, c) => (.error fault, c)
    | (.ok (), c) => (.ok (true, images ++ [a.id]), c)
  else (.ok (true, images ++ [a.id]), c)

/-- The assets of a form by array name. -/
def assets (images : Embedded) (c : Cache) : List Asset :=
  (images.filterMap c.asset?).mergeSort fun a b => decide (a.arrayName ≤ b.arrayName)

end Embedded

end FormDesign
