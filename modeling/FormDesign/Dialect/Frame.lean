import FormDesign.Code.Class
import FormDesign.Dialect.Block

/-!
# The frame of a class

What stands around the body of a generated class in a dialect: the banner, the opening and closing
of the class, of its constructor and of its handlers.
-/

namespace FormDesign.Dialect

/-- The note at the top of every file. -/
def banner (d : Dialect) : List Edit :=
  [.line (d.comment "Code generated by formgen. Do not edit."),
    .line (d.comment "Changes will be lost the next time the form is generated."),
    .gap]

/-- The lines between the banner and the imports. -/
def preamble (d : Dialect) (c : ClassInfo) : List String :=
  match d with
  | .cpp => ["#include \"" ++ c.baseFile ++ c.headerExt ++ "\""]
  | .python | .ruby => []
  | .perl => ["package " ++ c.name ++ ";", ""]

/-- The base class, spelled for the dialect. -/
def baseToken (d : Dialect) (c : ClassInfo) : String :=
  d.classToken c.baseClass c.baseLibrary

/-! ## The class -/

/-- Opens the namespaces of a C++ class. -/
def openNamespaces (names : List String) : List Edit :=
  names.flatMap fun name => [.line ("namespace " ++ name), .line "\x7b"]

/-- Closes the namespaces of a C++ class. -/
def closeNamespaces (names : List String) : List Edit :=
  names.reverse.map fun name => .line ("\x7d  // namespace " ++ name)

def openClass (d : Dialect) (c : ClassInfo) : List Edit :=
  match d with
  | .cpp => openNamespaces c.namespaces ++ (if c.namespaces.isEmpty then [] else [.gap])
  | .python => [.line ("class " ++ c.name ++ "(" ++ d.baseToken c ++ "):"), .indent]
  | .ruby => [.line ("class " ++ c.name ++ " < " ++ d.baseToken c), .indent]
  | .perl => [.line ("use base qw(" ++ d.baseToken c ++ ");"), .gap]

def closeClass (d : Dialect) (c : ClassInfo) : List Edit :=
  match d with
  | .cpp => closeNamespaces c.namespaces
  | .python => [.unindent, .gap]
  | .ruby => [.trim, .unindent, .line "end", .gap]
  | .perl => [.gap, .line "1;"]

/-! ## The constructor -/

/-- The parameters of a C++ method. -/
def cppParams (params : List Param) (withDefaults : Bool) : String :=
  Text.join ", " <| params.map fun p =>
    match p.default, withDefaults with
    | some e, true => p.cppType ++ " " ++ p.name ++ " = " ++ Dialect.expr .cpp e
    | _, _ => p.cppType ++ " " ++ p.name

/-- The parameters of a constructor whose defaults stand behind `sign`. -/
def defaultedParams (d : Dialect) (sign : String) (params : List Param) : List String :=
  params.map fun p =>
    match p.default with
    | some e => p.name ++ sign ++ d.expr e
    | none => p.name

def openConstructor (d : Dialect) (c : ClassInfo) : List Edit :=
  match d with
  | .cpp =>
    if c.kind.isTwoStep then
      d.openBlock ("bool " ++ c.name ++ "::Create(" ++ cppParams c.params false ++ ")")
        ++ [.line ("if (!" ++ c.baseClass ++ "::Create(" ++ c.paramNames ++ "))"),
          .indent, .line "return false;", .unindent, .gap]
    else d.openBlock ("bool " ++ c.name ++ "::Create()")
  | .python =>
    let params := "self" :: d.defaultedParams "=" c.params
    let forwarded := "self" :: c.params.map Param.name
    [.line ("def __init__(" ++ Text.join ", " params ++ "):"), .indent,
      .line (d.baseToken c ++ ".__init__(" ++ Text.join ", " forwarded ++ ")"), .gap]
  | .ruby =>
    let params := Text.join ", " (d.defaultedParams " = " c.params)
    [.line (if params = "" then "def initialize" else "def initialize(" ++ params ++ ")"), .indent,
      .line ("super(" ++ c.paramNames ++ ")"), .gap]
  | .perl =>
    let names := c.params.map fun p => "$" ++ p.name
    let default (p : Param) : List Edit :=
      match p.default with
      | some e =>
        [.line ("$" ++ p.name ++ " = " ++ d.expr e ++ " unless defined $" ++ p.name ++ ";")]
      | none => []
    d.openBlock "sub new"
      ++ [.line ("my (" ++ Text.join ", " ("$class" :: names) ++ ") = @_;")]
      ++ c.params.flatMap default
      ++ [.line ("my $self = $class->SUPER::new(" ++ Text.join ", " names ++ ");"), .gap]

def closeConstructor (d : Dialect) : List Edit :=
  match d with
  | .cpp => [.gap, .line "return true;"] ++ d.closeBlock ++ [.gap]
  | .python => [.unindent, .gap]
  | .ruby => [.trim, .unindent, .line "end", .gap]
  | .perl => [.gap, .line "return $self;"] ++ d.closeBlock ++ [.gap]

/-! ## Handlers -/

/-- Opens the method that shows a context menu. -/
def openMenu (d : Dialect) (c : ClassInfo) (handler : String) : List Edit :=
  match d with
  | .cpp =>
    d.openBlock
      ("void " ++ c.name ++ "::" ++ handler ++ "(wxContextMenuEvent& WXUNUSED(event))")
  | .python => [.line ("def " ++ handler ++ "(self, event):"), .indent]
  | .ruby => [.line ("def " ++ d.methodName handler ++ "(event)"), .indent]
  | .perl => d.openBlock ("sub " ++ handler) ++ [.line "my ($self, $event) = @_;"]

/-- Shows a context menu and closes the method. -/
def closeMenu (d : Dialect) (menu : Var) : List Edit :=
  let shown := d.varRef menu
  match d with
  | .cpp =>
    [.line ("PopupMenu(" ++ shown ++ ");"), .line ("delete " ++ shown ++ ";")] ++ d.closeBlock
      ++ [.gap]
  | .python =>
    [.line ("self.PopupMenu(" ++ shown ++ ")"), .line (shown ++ ".Destroy()"), .unindent, .gap]
  | .ruby => [.line ("popup_menu(" ++ shown ++ ")"), .unindent, .line "end", .gap]
  | .perl =>
    [.line ("$self->PopupMenu(" ++ shown ++ ", wxDefaultPosition);")] ++ d.closeBlock ++ [.gap]

/-- An empty handler for the user to replace. C++ has it in the header. -/
def handlerStub (d : Dialect) (handler : String) : List Edit :=
  match d with
  | .cpp => []
  | .python =>
    [.line ("def " ++ handler ++ "(self, event):"), .indent, .line "event.Skip()", .unindent, .gap]
  | .ruby =>
    [.line ("def " ++ d.methodName handler ++ "(event)"), .indent, .line "event.skip", .unindent,
      .line "end", .gap]
  | .perl =>
    d.block ("sub " ++ handler) [.line "my ($self, $event) = @_;", .line "$event->Skip();"]
      ++ [.gap]

/-- The empty handlers of a class. -/
def handlerStubs (d : Dialect) (c : ClassInfo) : List Edit :=
  c.handlers.flatMap fun (_, handler) => d.handlerStub handler

end FormDesign.Dialect
