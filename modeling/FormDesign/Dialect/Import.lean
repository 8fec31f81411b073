import FormDesign.Code.Needs
import FormDesign.Dialect.Name
import FormDesign.Grouped

/-!
# Imports in the dialects

The lines that make the toolkit known to a generated file. Besides the classes of the form, some
dialects look at the text of the class for the constants and helpers it uses.
-/

namespace FormDesign

/-- What a form uses from elsewhere. -/
structure Imports where
  libraries : List Library
  /-- The classes, spelled for the language. -/
  classTokens : List String
  /-- Headers of the toolkit. -/
  systemHeaders : List String
  /-- Headers of the project. -/
  localHeaders : List String
  needs : ImageNeeds

namespace Imports

def empty : Imports :=
  { libraries := [], classTokens := [], systemHeaders := [], localHeaders := [], needs := .none }

end Imports

/-! ## What a text uses -/

/-- Letters, digits and underscores of ASCII. -/
def isWordChar (c : Char) : Bool :=
  c.isAlphanum || c == '_'

/-- The words of a program text. -/
def programWords (body : String) : List String :=
  (Text.Chars.splitOn ' ' (body.toList.map fun c => if isWordChar c then c else ' ')).filterMap
    fun word => if word = [] then none else some (String.ofList word)

/-- The beginnings of constants and the groups in which Perl exports them. The first that fits
counts. -/
def exportGroups : List (String × String) :=
  [("wxID_", ":id"), ("wxVERTICAL", ":sizer"), ("wxHORIZONTAL", ":sizer"), ("wxALL", ":sizer"),
    ("wxEXPAND", ":sizer"), ("wxALIGN_", ":sizer"), ("wxLEFT", ":sizer"), ("wxRIGHT", ":sizer"),
    ("wxTOP", ":sizer"), ("wxBOTTOM", ":sizer"), ("wxSHAPED", ":sizer"),
    ("wxFIXED_MINSIZE", ":sizer"), ("wxTE_", ":textctrl"), ("wxCB_", ":combobox"),
    ("wxCHK_", ":checkbox"), ("wxLB_", ":listbox"), ("wxSL_", ":slider"), ("wxGA_", ":gauge"),
    ("wxTB_", ":toolbar"), ("wxITEM_", ":menu"), ("wxBITMAP_TYPE_", ":bitmap"),
    ("wxART_", ":artprov"), ("wxNB_", ":notebook"), ("wxBK_", ":bookctrl"),
    ("wxDEFAULT_DIALOG_STYLE", ":dialog"), ("wxDEFAULT_FRAME_STYLE", ":frame"),
    ("wxTAB_TRAVERSAL", ":window"), ("wxBORDER_", ":window"), ("wxBOTH", ":window")]

/-- The group in which Perl exports a constant. -/
def exportGroup (constant : String) : String :=
  match exportGroups.find? fun (start, _) => Text.startsWith constant start with
  | some (_, group) => group
  | none => ":misc"

/-- Whether a word names a binder of events in Perl. -/
def isEventBinder (word : String) : Bool :=
  Text.startsWith word "EVT_"

/-! ## Import lines -/

/-- What stands before the last dot of a name. -/
def moduleOf? (token : String) : Option String :=
  (Text.Chars.cutAt? '.' token.toList.reverse).map fun (_, before) => String.ofList before.reverse

namespace Dialect

/-- The module of a library where it has to be asked for. -/
def libraryModule? : Dialect → Library → Option String
  | .cpp, _ => none
  | .python, .core => none
  | .python, .adv => some "wx.adv"
  | .python, .aui => some "wx.aui"
  | .python, .html => some "wx.html"
  | .python, .ribbon => some "wx.ribbon"
  | .python, .richText => some "wx.richtext"
  | .python, .stc => some "wx.stc"
  | .ruby, .core | .ruby, .adv => none
  | .ruby, .aui => some "wx/aui"
  | .ruby, .html => some "wx/html"
  | .ruby, .ribbon => some "wx/rbn"
  | .ruby, .richText => some "wx/rtc"
  | .ruby, .stc => some "wx/stc"
  | .perl, .core | .perl, .adv | .perl, .ribbon => none
  | .perl, .aui => some "Wx::AUI"
  | .perl, .html => some "Wx::Html"
  | .perl, .richText => some "Wx::RichText"
  | .perl, .stc => some "Wx::STC"

/-- The libraries whose modules the text of the class mentions by their paths. -/
def mentionedLibraries (d : Dialect) (body : String) : List Library :=
  let candidates : List Library :=
    match d with
    | .python => [.adv, .aui, .html, .ribbon, .richText, .stc]
    | .ruby => [.aui, .html, .ribbon, .richText, .stc]
    | .cpp | .perl => []
  candidates.filter fun library => Text.contains body (d.modulePath library)

/-- The C++ headers that the image helpers and the validators need. -/
def helperHeaders (needs : ImageNeeds) (body : String) : List String :=
  (if needs.image || needs.header || needs.animation then ["wx/mstream.h"] else [])
    ++ (if needs.svg then ["wx/bmpbndl.h"] else [])
    ++ (if needs.art then ["wx/artprov.h"] else [])
    ++ (if needs.animation then ["wx/animate.h"] else [])
    ++ (if Text.contains body "wxGenericValidator" then ["wx/valgen.h"] else [])

/-- The lines that import what a form uses. `body` is the text that follows them. -/
def imports (d : Dialect) (i : Imports) (body : String) : List String :=
  let modules := (i.libraries ++ d.mentionedLibraries body).filterMap d.libraryModule?
  match d with
  | .cpp => (Sorted.ofList (helperHeaders i.needs body)).map fun h => "#include <" ++ h ++ ">"
  | .python =>
    let own := (i.classTokens.filterMap moduleOf?).filter (Text.startsWith · "wx.lib.")
    ["import wx"] ++ (Sorted.ofList (modules ++ own)).map ("import " ++ ·)
      ++ (if Text.contains body "BytesIO(" then ["", "from io import BytesIO"] else [])
  | .ruby =>
    ["require 'wx'"] ++ (Sorted.ofList modules).map (fun m => "require '" ++ m ++ "'")
      ++ (if Text.contains body "StringIO" then ["require 'stringio'"] else [])
  | .perl =>
    let words := programWords body
    let binders := Sorted.ofList (words.filter isEventBinder)
    let groups := Sorted.ofList <|
      (words.filter fun word => !isEventBinder word && isToolkitName word).map exportGroup
    ["use strict;", "use warnings;", ""]
      ++ (if groups = [] then ["use Wx;"] else ["use Wx qw[" ++ Text.join " " groups ++ "];"])
      ++ (if binders = [] then [] else ["use Wx::Event qw(" ++ Text.join " " binders ++ ");"])
      ++ (Sorted.ofList modules).map fun m => "use " ++ m ++ ";"

end Dialect

end FormDesign
