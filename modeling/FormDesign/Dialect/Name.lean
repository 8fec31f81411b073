import FormDesign.Kind
import FormDesign.Language
import FormDesign.Text.Split
import FormDesign.Text.Words

/-!
# Names in the dialects

How a dialect spells the names of the toolkit, which begin with `wx` in C++: classes and constants
live in modules by their library, and methods may be in snake case. Names that are not the
toolkit's own are left alone.
-/

namespace FormDesign

/-- A name without its `wx`, when a capital or an underscore follows. -/
def bareName (name : String) : String :=
  match Text.dropStart? name "wx" with
  | some rest => if Text.startsWhere rest fun c => c.isUpper || c == '_' then rest else name
  | none => name

/-- Whether a name belongs to the toolkit. -/
def isToolkitName (name : String) : Bool :=
  bareName name ≠ name

/-- The beginnings of constants, without `wx`, and the libraries they belong to. -/
def constantLibraries : List (String × Library) :=
  [("STC_", .stc), ("AUI_", .aui), ("RIBBON_", .ribbon), ("RE_", .richText), ("HW_", .html),
    ("HL_", .adv), ("AC_", .adv), ("CAL_", .adv), ("WIZARD_", .adv)]

/-- The library of a constant whose `wx` was dropped. -/
def constantLibrary (name : String) : Library :=
  match constantLibraries.find? fun (start, _) => Text.startsWith name start with
  | some (_, library) => library
  | none => .core

namespace Dialect

/-! ## Modules -/

/-- What stands before the name of a class or constant of a library. -/
def modulePath : Dialect → Library → String
  | .cpp, _ | .perl, _ => ""
  | .python, .core => "wx."
  | .python, .adv => "wx.adv."
  | .python, .aui => "wx.aui."
  | .python, .html => "wx.html."
  | .python, .ribbon => "wx.ribbon."
  | .python, .richText => "wx.richtext."
  | .python, .stc => "wx.stc."
  | .ruby, .core | .ruby, .adv => "Wx::"
  | .ruby, .aui => "Wx::AUI::"
  | .ruby, .html => "Wx::HTML::"
  | .ruby, .ribbon => "Wx::RBN::"
  | .ruby, .richText => "Wx::RTC::"
  | .ruby, .stc => "Wx::STC::"

/-! ## Classes, constants and methods -/

/-- The spelling of a class. -/
def classToken (d : Dialect) (className : String) (library : Library) : String :=
  match d with
  | .cpp => className
  | .perl => if isToolkitName className then "Wx::" ++ bareName className else className
  | .python | .ruby =>
    if isToolkitName className then d.modulePath library ++ bareName className else className

/-- The spelling of the generic variant of a native control, where the language has one. -/
def genericToken? (d : Dialect) (className : String) : Option String :=
  match d with
  | .cpp => some className
  | .python =>
    if className = "wxGenericAnimationCtrl" then some "wx.adv.GenericAnimationCtrl"
    else if className = "wxGenericCalendarCtrl" then some "wx.adv.GenericCalendarCtrl"
    else if className = "wxGenericStaticBitmap" then some "wx.GenericStaticBitmap"
    else if className = "wxGenericStaticText" then some "wx.lib.stattext.GenStaticText"
    else none
  | .ruby | .perl => none

/-- The spelling of one constant. -/
def constant (d : Dialect) (name : String) : String :=
  match d with
  | .cpp | .perl => name
  | .python =>
    if isToolkitName name then d.modulePath (constantLibrary (bareName name)) ++ bareName name
    else name
  | .ruby =>
    if isToolkitName name then
      let bare := bareName name
      let bare := if bare.toList.any Char.isLower then Text.upperSnakeCase bare else bare
      d.modulePath (constantLibrary bare) ++ bare
    else name

/-- The spelling of a method, the form's own handlers included. -/
def methodName (d : Dialect) (name : String) : String :=
  match d with
  | .ruby => Text.snakeCase name
  | .cpp | .python | .perl => name

/-! ## Variables -/

/-- A member of the class. -/
def memberRef (d : Dialect) (name : String) : String :=
  match d with
  | .cpp => name
  | .python => "self." ++ name
  | .ruby => "@" ++ name
  | .perl => "$self->\x7b" ++ name ++ "\x7d"

/-- A local variable. -/
def localRef (d : Dialect) (name : String) : String :=
  match d with
  | .cpp | .python | .ruby => name
  | .perl => "$" ++ name

/-- A local variable where it is first assigned. -/
def localDeclaration (d : Dialect) (name : String) : String :=
  match d with
  | .cpp => "auto* " ++ name
  | .python | .ruby => name
  | .perl => "my $" ++ name

/-- The form itself. -/
def selfRef : Dialect → String
  | .cpp => "this"
  | .python | .ruby => "self"
  | .perl => "$self"

/-- An identifier that the form declares. -/
def customId (d : Dialect) (name : String) : String :=
  match d with
  | .python => "self." ++ name
  | .cpp | .ruby | .perl => name

/-! ## What the dialect covers -/

/-- Whether nodes of a kind can be generated at all. -/
def supports : Dialect → Kind → Bool
  | .perl, k => k.library != .ribbon
  | _, _ => true

/-- Whether a variable can hold an object itself. -/
def holdsByValue : Dialect → Bool
  | .cpp => true
  | _ => false

end Dialect

end FormDesign
