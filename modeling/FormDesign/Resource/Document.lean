import FormDesign.Options
import FormDesign.Output
import FormDesign.Resource.Build
import FormDesign.Tree.Query
import FormDesign.Xml.Print

/-!
# Resource documents

A document holds the objects of any number of forms, or of a whole project. Forms are added one
after the other; a bar is put into a panel of its own first, because it cannot be loaded by itself.
A preview puts dialogs and panels into a shell that can be shown.
-/

namespace FormDesign

/-- A resource document, as far as it was built. -/
structure ResourceDocument where
  options : ResourceOptions
  /-- Whether dialogs and panels are put into shells. -/
  previewing : Bool
  /-- Whether the document opens with a warning not to edit it. -/
  banner : Bool
  /-- What is in the resource element, once there is one. -/
  objects : Option (List Xml)
  /-- What the user should know, in the order it came up. -/
  warnings : List String

namespace ResourceDocument

/-- The name of the shell of a preview. -/
def shellName : String := "_wxue_temp_dlg"

/-- The name of the sizer in a shell, and of the sizer that holds a bar. -/
def shellSizerName : String := "_wxue_temp_sizer"

/-- A document without a resource element. -/
def empty (options : ResourceOptions) (previewing banner : Bool) : ResourceDocument :=
  { options, previewing, banner, objects := none, warnings := [] }

/-! ## Objects of a node -/

/-- A bar in a panel of its own. -/
def barPanel (bar : Design) : Design :=
  let panel := (Element.ofKind .panelForm).setProp .className bar.label.className
  let sizer := (Element.ofKind .verticalBoxSizer).setProp .varName shellSizerName
  .mk panel [.mk sizer [bar]]

/-- A dialog that shows an object. -/
def shellDialog (title : String) (shown : Xml) : Xml :=
  let sizer : Part :=
    { attributes := [("class", "wxBoxSizer"), ("name", shellSizerName)]
      contents := [.leaf "orient" "wxVERTICAL", (Part.ofClass "sizeritem" [shown]).object] }
  let dialog : Part :=
    { attributes := [("class", "wxDialog"), ("name", shellName)]
      contents :=
        [.leaf "style" "wxDEFAULT_DIALOG_STYLE|wxRESIZE_BORDER", .leaf "centered" "1",
          .leaf "title" title, sizer.object] }
  dialog.object

/-- A panel that shows an object. -/
def shellPanel (shown : Xml) : Xml :=
  let panel : Part :=
    { attributes := [("class", "wxPanel"), ("name", shellName)], contents := [shown] }
  panel.object

/-- An object without anything in it. -/
def emptyObject : Xml :=
  .element "object" [] none []

/-- What is added to a document for a node. -/
structure Addition where
  placement : Placement
  objects : List Xml
  warnings : List String

/-- The objects of a design, below the elements above it, nearest first. A project is dissolved into
what is in it; what cannot be described leaves no object, except in a shell. -/
def addition (comments previewing : Bool) (above : List Element) (b : Design) : Addition :=
  let g := grow comments above b
  let object := g.object.object
  if b.label.kind = .project then
    { placement := g.placement, objects := g.object.contents, warnings := g.warnings }
  else if previewing && b.label.kind = .panelForm then
    { placement := g.placement, objects := [shellDialog b.label.className object],
      warnings := g.warnings }
  else if previewing && b.label.kind = .dialog then
    match b.children with
    | [] => { placement := .updated, objects := [shellPanel emptyObject], warnings := [] }
    | child :: _ =>
      let g := grow comments (b.label :: above) child
      { placement := g.placement, objects := [shellPanel g.object.object], warnings := g.warnings }
  else
    { placement := g.placement,
      objects := if g.placement = .notSupported then [] else [object],
      warnings := g.warnings }

/-! ## The document -/

/-- A document with more objects and warnings. -/
def extend (d : ResourceDocument) (a : Addition) : ResourceDocument :=
  { d with
    objects := some (d.objects.getD [] ++ a.objects), warnings := d.warnings ++ a.warnings }

/-- Adds a form, or every form of a project. Tells what became of the node. -/
def add (d : ResourceDocument) (t : Tree) (id : Nat) :
    Except Fault (Placement × ResourceDocument) :=
  match t.design id with
  | .error fault => .error fault
  | .ok b =>
    let a :=
      if b.label.kind.isBarForm then addition d.options.addComments d.previewing [] (barPanel b)
      else
        addition d.options.addComments d.previewing ((t.ancestors id).map Node.toElement) b
    .ok (a.placement, d.extend a)

/-- The comments at the top of a generated file. -/
def bannerComments : List Xml :=
  [.comment " Code generated by formgen. Do not edit. ",
    .comment " Changes will be lost the next time the form is generated. "]

/-- The element around the objects. -/
def resourceElement (objects : List Xml) : Xml :=
  .element "resource" [("xmlns", "http://www.wxwidgets.org/wxxrc"), ("version", "2.5.3.0")] none
    objects

/-- The nodes of the document. -/
def nodes (d : ResourceDocument) : List Xml :=
  (if d.banner then bannerComments else []) ++ (d.objects.map resourceElement).toList

/-- How documents are indented. -/
def indentation (options : ResourceOptions) : Indentation :=
  if options.noWhitespace then .none
  else if options.indentWithSpaces then .twoSpaces
  else .tab

/-- The text of the document. -/
def text (d : ResourceDocument) : String :=
  Xml.document (indentation d.options) d.nodes

end ResourceDocument

/-! ## Generation -/

/-- The text of the resource with only one node in it, without the banner. -/
def resourceText (t : Tree) (id : Nat) (options : ResourceOptions) (previewing : Bool) :
    Except Fault String :=
  ((ResourceDocument.empty options previewing false).add t id).map fun (_, d) => d.text

/-- Generates the resource file of a form. Nodes that hold forms are ignored, and so are forms that
the resource cannot describe. -/
def generateResource (t : Tree) (id : Nat) (o : Options) : Except Fault FormOutput :=
  match t.get? id with
  | none => .error (.unknownNode id)
  | some n =>
    if n.kind.isOutline then .ok (.ignored n.className .resource [])
    else if !n.kind.isForm then .error (.notAForm n.kind)
    else if n.kind = .popupTransientWindow then
      let warning :=
        n.className ++ " (" ++ n.kind.name ++ ") cannot be generated for "
          ++ Language.resource.name
      .ok (.ignored n.className .resource [warning])
    else
      ((ResourceDocument.empty o.resource false true).add t id).map fun (_, d) =>
        let file : OutputFile :=
          { path := n.generatedFile, extension := Language.resource.extension, content := d.text }
        { className := n.generatedClass, language := .resource, code := .needsWriting,
          files := [file], warnings := d.warnings }

end FormDesign
