import FormDesign.Code.Events
import FormDesign.Code.Images
import FormDesign.Dialect.Import
import FormDesign.Options
import FormDesign.Value

/-!
# The generated class

What the class generated for a form looks like from outside: its name and base, the parameters of
its constructor, the handlers it provides, and what it imports.
-/

namespace FormDesign

/-- A parameter of the constructor. -/
structure Param where
  name : String
  /-- The type in C++. -/
  cppType : String
  default : Option Expr

namespace Param

def parent (default : Option Expr) : Param :=
  { name := "parent", cppType := "wxWindow*", default }

def id (e : Element) : Param :=
  { name := "id", cppType := "wxWindowID", default := some (.id (e.text .id)) }

def title (e : Element) : Param :=
  { name := "title", cppType := "const wxString&", default := some (.text (e.text .title)) }

def pos : Param :=
  { name := "pos", cppType := "const wxPoint&", default := some (.const "wxDefaultPosition") }

def size (e : Element) : Param :=
  { name := "size", cppType := "const wxSize&"
    default := some <|
      match pair? (e.text .size) with
      | some (width, height) => .sizeOf width height
      | none => .const "wxDefaultSize" }

/-- The style parameter: the styles as they are written, or else the usual ones. -/
def style (e : Element) (usual : String) : Param :=
  let given := [e.text .style, e.text .windowStyle].filter (· ≠ "")
  { name := "style", cppType := "long"
    default := some (.const (if given = [] then usual else Text.join "|" given)) }

/-- The parameters for a form, with defaults from its properties. -/
def all (e : Element) : List Param :=
  match e.kind with
  | .dialog | .wizard =>
    [parent none, id e, title e, pos, size e, style e "wxDEFAULT_DIALOG_STYLE"]
  | .frame => [parent (some .null), id e, title e, pos, size e, style e "wxDEFAULT_FRAME_STYLE"]
  | .panelForm => [parent none, id e, pos, size e, style e "wxTAB_TRAVERSAL"]
  | .popupTransientWindow => [parent none, style e "wxBORDER_NONE"]
  | .menuBarForm => [style e "0"]
  | .toolBarForm => [parent none, id e, pos, size e, style e "wxTB_HORIZONTAL"]
  | .ribbonBarForm => [parent none, id e, pos, size e, style e "wxRIBBON_BAR_DEFAULT_STYLE"]
  | _ => []

end Param

namespace Kind

/-- Forms whose base class is set up by a call of its own after construction. -/
def isTwoStep : Kind → Bool
  | .dialog | .frame | .panelForm | .wizard | .popupTransientWindow => true
  | _ => false

end Kind

/-- The class generated for a form. -/
structure ClassInfo where
  kind : Kind
  name : String
  baseFile : String
  /-- The namespaces around it, outermost first. -/
  namespaces : List String
  params : List Param
  headerExt : String
  /-- The events and the named handlers bound to them, each handler once. -/
  handlers : List (String × String)
  /-- The methods that show the context menus. -/
  contextMenus : List String

namespace ClassInfo

def baseClass (c : ClassInfo) : String := c.kind.className

def baseLibrary (c : ClassInfo) : Library := c.kind.library

/-- The names of the parameters with commas between. -/
def paramNames (c : ClassInfo) : String :=
  Text.join ", " (c.params.map Param.name)

end ClassInfo

namespace Form

/-- The namespaces around the class: the form's own, or else those of the options. -/
def namespaces (f : Form) (o : Options) : List String :=
  if f.element.text .namespace = "" then o.namespaces
  else Options.namespaceParts (f.element.text .namespace)

/-- The class generated for a form, given the events it binds. -/
def classInfo (f : Form) (o : Options) (events : EventTables) : ClassInfo :=
  { kind := f.node.kind, name := f.className, baseFile := f.baseFile, namespaces := f.namespaces o,
    params := Param.all f.element, headerExt := o.headerExt,
    handlers := namedHandlers events.toList, contextMenus := f.menuBuilders.map menuHandler }

/-- What the class generated for a form uses from elsewhere. -/
def imports (f : Form) (d : Dialect) (includes : List String) : Imports :=
  let below := f.innerElements
  let classes := (below.filter fun e => e.kind.hasClass).map (resolveClass d)
  { libraries :=
      f.node.kind.library :: below.flatMap (fun e => e.events.map fun u => eventLibrary u.name)
        ++ classes.map ResolvedClass.library
    classTokens := Sorted.ofList (classes.map ResolvedClass.token)
    systemHeaders :=
      Sorted.ofList (f.node.kind.header?.toList ++ below.filterMap fun e => e.kind.header?)
    localHeaders :=
      Sorted.ofList ((below.map fun e => e.text .subclassHeader).filter (· ≠ "") ++ includes)
    needs := f.needs }

end Form

end FormDesign
