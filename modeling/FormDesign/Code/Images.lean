import FormDesign.Code.Form
import FormDesign.Code.Needs
import FormDesign.Image.Cache

/-!
# Images of a form

The pass over the image properties of a form: embedded images are resolved through the cache,
header images become includes, and what is missing or malformed becomes a warning. Besides, the
helpers that the images need.
-/

namespace FormDesign

/-- What the pass over the images of a form found. -/
structure ImageTable where
  embedded : Embedded
  /-- The headers to include, sorted. -/
  includes : List String
  warnings : List String

namespace ImageTable

def empty : ImageTable := { embedded := [], includes := [], warnings := [] }

def warn (t : ImageTable) (warning : String) : ImageTable :=
  { t with warnings := t.warnings ++ [warning] }

end ImageTable

/-! ## Includes -/

/-- The path to include a header by: relative to the art directory when it lies there. -/
def includePath (path artDirectory : String) : String :=
  let isSlash := fun c => c == '/' || c == '\\'
  let directory := Text.dropEndWhile isSlash artDirectory
  if directory = "" then path
  else
    match Text.dropStart? path directory with
    | some rest =>
      if Text.startsWhere rest isSlash then String.ofList rest.toList.tail else path
    | none => path

/-! ## The pass -/

/-- Takes an embedded image into the table. A missing file is a warning and so is a clash of array
names; bytes that cannot be read end the pass. -/
def embedImage (source : FileSource) (d : ImageDescription) (t : ImageTable) (c : Cache) :
    Except Fault ImageTable × Cache :=
  match c.resolve source d with
  | (.ok (some a), c) =>
    match t.embedded.add source a c with
    | (.ok (_, embedded), c) => (.ok { t with embedded }, c)
    | (.error fault, c) => (.error fault, c)
  | (.ok none, c) => (.ok (t.warn ("Unable to locate image file: " ++ d.path)), c)
  | (.error (.unreadable path reason), c) => (.error (.unreadable path reason), c)
  | (.error fault, c) => (.ok (t.warn fault.message), c)

/-- Takes the image of one property text into the table. -/
def collectImage (source : FileSource) (artDirectory text : String) (t : ImageTable) (c : Cache) :
    Except Fault ImageTable × Cache :=
  match ImageDescription.parse text with
  | .error reason => (.ok (t.warn (Fault.badDescription text reason).message), c)
  | .ok d =>
    match d.kind with
    | .embed | .svg => embedImage source d t c
    | .header | .xpm =>
      (.ok { t with includes := Sorted.insert (includePath d.path artDirectory) t.includes }, c)
    | .art => (.ok t, c)

/-- Takes the images of property texts into the table, until one of them fails. -/
def collectImages (source : FileSource) (artDirectory : String) :
    List String → ImageTable → Cache → Except Fault ImageTable × Cache
  | [], t, c => (.ok t, c)
  | text :: rest, t, c =>
    match collectImage source artDirectory text t c with
    | (.ok t, c) => collectImages source artDirectory rest t c
    | (.error fault, c) => (.error fault, c)

/-- The texts of the image properties that are not empty. -/
def Element.imageTexts (e : Element) : List String :=
  (e.imageProps.map Prod.snd).filter (· ≠ "")

/-- The pass over the images of a form. -/
def Form.images (f : Form) (source : FileSource) (artDirectory : String) (c : Cache) :
    Except Fault ImageTable × Cache :=
  match collectImages source artDirectory (f.elements.flatMap Element.imageTexts) .empty c with
  | (.ok t, c) => (.ok t, c)
  | (.error fault, c) => (.error (.imagePass fault), c)

/-! ## Needs -/

/-- The helper that the icon of a form needs. -/
def iconNeeds (text : String) : ImageNeeds :=
  match ImageDescription.parse? text with
  | none => .none
  | some d =>
    match d.kind with
    | .header | .xpm => { ImageNeeds.none with header := !d.isXpmFile }
    | .art => { ImageNeeds.none with art := true }
    | .embed => { ImageNeeds.none with image := true }
    | .svg => { ImageNeeds.none with svg := true }

/-- The helper that an image property of a node needs. -/
def propNeeds (p : Property) (text : String) : ImageNeeds :=
  match ImageDescription.parse? text with
  | none => .none
  | some d =>
    let isAnimation := p == .animation
    match d.kind with
    | .embed =>
      { ImageNeeds.none with animation := isAnimation, image := !isAnimation }
    | .svg => { ImageNeeds.none with svg := true }
    | .header =>
      { ImageNeeds.none with animation := isAnimation, header := !isAnimation && !d.isXpmFile }
    | .art => { ImageNeeds.none with art := true }
    | .xpm => .none

/-- The helpers that the image properties of a node need. -/
def Element.imageNeeds (e : Element) : ImageNeeds :=
  (e.imageProps.map fun (p, text) => propNeeds p text).foldl ImageNeeds.merge .none

/-- The helpers that the images of a form need. Of the form itself only the icon counts. -/
def Form.needs (f : Form) : ImageNeeds :=
  (f.innerElements.map Element.imageNeeds).foldl ImageNeeds.merge (iconNeeds (f.element.text .icon))

end FormDesign
