import FormDesign.Json
import FormDesign.Language
import FormDesign.Text.Split

/-!
# Options

The settings of a run, and how they are read from JSON. A record may be written as an object or as
the array of its fields. Fields that are left out keep their defaults, unknown names are passed
over, and a field given twice or with a value of the wrong type makes the whole text unreadable.
-/

namespace FormDesign

/-- Settings of the XML resource. -/
structure ResourceOptions where
  /-- Keep comments in place of what the resource cannot describe. -/
  addComments : Bool
  /-- Write everything on one line. -/
  noWhitespace : Bool
  /-- Indent with two spaces and not with a tab. -/
  indentWithSpaces : Bool
  deriving DecidableEq

/-- Settings that all generators share. -/
structure Options where
  /-- Extension of C++ headers. -/
  headerExt : String
  /-- Extension of C++ sources. -/
  sourceExt : String
  /-- Namespaces around the generated C++ class, with double colons between. -/
  nameSpace : String
  /-- Whether the passes over a form may run side by side. It changes no output. -/
  parallelCollection : Bool
  resource : ResourceOptions
  /-- The directory that header images are included relative to. -/
  artDirectory : String
  /-- The languages a project is generated in. -/
  languages : List Language
  deriving DecidableEq

namespace ResourceOptions

def default : ResourceOptions :=
  { addComments := false, noWhitespace := false, indentWithSpaces := false }

end ResourceOptions

namespace Options

def default : Options :=
  { headerExt := ".h", sourceExt := ".cpp", nameSpace := "", parallelCollection := true,
    resource := .default, artDirectory := "", languages := [.source .cpp] }

/-- The default options for all languages. -/
def allLanguages : Options :=
  { default with languages := Language.all }

/-- The parts of a namespace, outermost first. -/
def namespaceParts (text : String) : List String :=
  (((Text.Chars.splitOnPair ':' text.toList).map String.ofList).map Text.trim).filter (· ≠ "")

/-- The namespaces around the generated class. -/
def namespaces (o : Options) : List String :=
  namespaceParts o.nameSpace

end Options

/-! ## Reading -/

namespace Json

def bool? : Json → Option Bool
  | bool b => some b
  | _ => none

def text? : Json → Option String
  | string s => s
  | _ => none

/-- Whether a name of the list is given more than once. -/
def repeats (names : List String) (members : List (Option String × Json)) : Bool :=
  names.any fun name => 1 < (members.filter fun (key, _) => key == some name).length

/-- The values of the fields of a record, `none` for those left out. -/
def fields? (names : List String) : Json → Option (List (Option Json))
  | array items =>
    if items.length ≤ names.length then
      some (items.map some ++ List.replicate (names.length - items.length) none)
    else none
  | object members =>
    if members.any (fun (key, _) => key.isNone) || repeats names members then none
    else
      some <| names.map fun name =>
        (members.find? fun (key, _) => key == some name).map Prod.snd
  | _ => none

/-- The value of a field, or its default when it was left out. -/
def orDefault {α : Type} (read : Json → Option α) (default : α) : Option Json → Option α
  | none => some default
  | some value => read value

/-- A language is its name, or an object with the name as its only member. -/
def language? : Json → Option Language
  | string s => s >>= Language.ofKey?
  | object [(key, null)] => key >>= Language.ofKey?
  | _ => none

def languages? : Json → Option (List Language)
  | array items => items.mapM language?
  | _ => none

end Json

namespace ResourceOptions

def ofJson? (json : Json) : Option ResourceOptions :=
  match json.fields? ["add_comments", "no_whitespace", "indent_with_spaces"] with
  | some [comments, whitespace, spaces] => do
    let addComments ← Json.orDefault Json.bool? default.addComments comments
    let noWhitespace ← Json.orDefault Json.bool? default.noWhitespace whitespace
    let indentWithSpaces ← Json.orDefault Json.bool? default.indentWithSpaces spaces
    some { addComments, noWhitespace, indentWithSpaces }
  | _ => none

end ResourceOptions

namespace Options

/-- The names of the fields, in their order. -/
def fieldNames : List String :=
  ["header_ext", "source_ext", "namespace", "parallel_collection", "xrc", "art_directory",
    "languages"]

def ofJson? (json : Json) : Option Options :=
  match json.fields? fieldNames with
  | some [header, source, scope, parallel, xml, art, targets] => do
    let headerExt ← Json.orDefault Json.text? default.headerExt header
    let sourceExt ← Json.orDefault Json.text? default.sourceExt source
    let nameSpace ← Json.orDefault Json.text? default.nameSpace scope
    let parallelCollection ← Json.orDefault Json.bool? default.parallelCollection parallel
    let resource ← Json.orDefault ResourceOptions.ofJson? default.resource xml
    let artDirectory ← Json.orDefault Json.text? default.artDirectory art
    let languages ← Json.orDefault Json.languages? default.languages targets
    some { headerExt, sourceExt, nameSpace, parallelCollection, resource, artDirectory, languages }
  | _ => none

/-- The options that a JSON text holds. -/
def parse? (text : String) : Option Options :=
  Json.parse? text >>= ofJson?

end Options

end FormDesign
