import FormDesign.Text.Split
import FormDesign.Text.Numeral

/-!
# Image descriptions

The text of an image property: a kind, a path and possibly a size, with semicolons between. Fields
after the third are ignored.
-/

namespace FormDesign

/-- How the picture of an image property reaches the program. -/
inductive ImageKind
  /-- The bytes of the file become part of the generated source. -/
  | embed
  /-- A picture of the toolkit's own stock. -/
  | art
  /-- A source file in the XPM format. -/
  | xpm
  /-- A header file that holds the bytes. -/
  | header
  /-- A vector drawing that becomes part of the generated source. -/
  | svg
  deriving DecidableEq

namespace ImageKind

def all : List ImageKind := [.embed, .art, .xpm, .header, .svg]

/-- The word for the kind in a description. -/
def name : ImageKind → String
  | .embed => "Embed"
  | .art => "Art"
  | .xpm => "XPM"
  | .header => "Header"
  | .svg => "SVG"

def ofName? (s : String) : Option ImageKind :=
  all.find? fun k => k.name == s

/-- Kinds whose bytes become part of the generated source. -/
def isEmbedded (k : ImageKind) : Bool :=
  k == .embed || k == .svg

end ImageKind

/-- What an image property says. -/
structure ImageDescription where
  kind : ImageKind
  /-- A file path; for stock art the name, and after a bar the client it is for. -/
  path : String
  /-- Width and height. -/
  size : Option (Int × Int)
  deriving DecidableEq

/-- Why a text is no image description. -/
inductive DescriptionFault
  | unknownKind (word : String)
  | missingPath

namespace DescriptionFault

def message : DescriptionFault → String
  | .unknownKind word => "unknown image type '" ++ word ++ "'"
  | .missingPath => "missing path"

end DescriptionFault

namespace ImageDescription

/-- A pair of 32-bit numbers with a comma between, in brackets or not. -/
def size? (text : String) : Option (Int × Int) :=
  let inner := Text.dropEndWhile (· == ']') (Text.dropWhile (· == '[') text)
  match Text.cutAt? ',' inner with
  | none => none
  | some (width, height) =>
    match Text.Numeral.int32? (Text.trim width), Text.Numeral.int32? (Text.trim height) with
    | some w, some h => some (w, h)
    | _, _ => none

/-- The description from its trimmed fields. -/
def ofFields : List String → Except DescriptionFault ImageDescription
  | [] => .error (.unknownKind "")
  | word :: rest =>
    match ImageKind.ofName? word with
    | none => .error (.unknownKind word)
    | some kind =>
      match rest with
      | [] => .error .missingPath
      | path :: more =>
        if path = "" then .error .missingPath
        else .ok { kind, path, size := more.head? >>= size? }

/-- Reads a description. Each field is trimmed. -/
def parse (text : String) : Except DescriptionFault ImageDescription :=
  ofFields ((Text.splitOn ';' text).map Text.trim)

/-- The description, if the text is one. -/
def parse? (text : String) : Option ImageDescription :=
  (parse text).toOption

/-- For stock art: the name of the picture, and the client after the first bar. -/
def artParts (d : ImageDescription) : String × Option String :=
  match Text.cutAt? '|' d.path with
  | some (id, client) => (id, some client)
  | none => (d.path, none)

/-- Whether the path names an XPM file. -/
def isXpmFile (d : ImageDescription) : Bool :=
  Text.endsWith (Text.asciiLower d.path) ".xpm"

/-- Whether the path names an animated cursor. -/
def isAniFile (d : ImageDescription) : Bool :=
  Text.contains (Text.asciiLower d.path) ".ani"

end ImageDescription

end FormDesign
