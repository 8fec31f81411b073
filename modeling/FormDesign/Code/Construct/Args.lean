import FormDesign.Code.Construct.Site

/-!
# Constructor arguments

The arguments that a control is created with, by its kind. Most controls take their window, an
identifier, something of their own, and a position, a size and a style, of which the defaults at the
end are left out.
-/

namespace FormDesign

namespace Element

/-- The position that a property gives. -/
def pointArg (text : String) : Expr :=
  match givenPair? text with
  | some (x, y) => .point x y
  | none => .const "wxDefaultPosition"

/-- The size that a property gives. -/
def sizeArg (text : String) : Expr :=
  match pair? text with
  | some (width, height) => .sizeOf width height
  | none => .const "wxDefaultSize"

/-- The expressions up to the last one that is not marked as a default. -/
def upToLastGiven (args : List (Expr × Bool)) : List Expr :=
  ((args.reverse.dropWhile Prod.snd).reverse).map Prod.fst

/-- Position, size and style, with the defaults at the end left out. -/
def placementArgs (e : Element) (implied : String) : List Expr :=
  let position := e.text .pos
  let size := e.text .size
  let style := e.style implied
  upToLastGiven
    [(pointArg position, (givenPair? position).isNone),
      (sizeArg size, (givenPair? size).isNone),
      (.const style, style = "")]

/-- The parameters of a custom control without the parentheses around them. -/
def customParameters (e : Element) : String :=
  let inner := Text.dropWhile (· == '(') (Text.trim (e.text .parameters))
  Text.trim (Text.dropEndWhile (· == ')') inner)

end Element

namespace Site

/-- Window, identifier, the control's own arguments, position, size and style. -/
def windowArgs (s : Site) (p : Place) (own : List Expr) (implied : String) : List Expr :=
  s.window p :: p.element.idArg :: own ++ p.element.placementArgs implied

/-- The arguments that the object of a node is created with. -/
def args (s : Site) (p : Place) : List Expr :=
  let e := p.element
  let label := Expr.text (e.text .label)
  let value := Expr.text (e.text .value)
  match p.kind with
  | .button | .toggleButton | .staticText | .checkBox | .radioButton | .collapsiblePane =>
    s.windowArgs p [label] ""
  | .check3State => s.windowArgs p [label] "wxCHK_3STATE"
  | .textCtrl | .richTextCtrl => s.windowArgs p [value] ""
  | .comboBox => (s.windowArgs p [value] "").take 5
  | .choice | .listBox => (s.windowArgs p [] "").take 4
  | .spinCtrl =>
    let style := e.style ""
    [s.window p, e.idArg, value, Element.pointArg (e.text .pos), Element.sizeArg (e.text .size),
      .const (if style = "" then "wxSP_ARROW_KEYS" else style),
      .int (e.intOr .min 0), .int (e.intOr .max 100), .int (e.intOr .initial 0)]
  | .slider =>
    s.windowArgs p [.int (e.int .value), .int (e.intOr .min 0), .int (e.intOr .max 100)] ""
  | .gauge => s.windowArgs p [.int (e.intOr .max 100)] ""
  | .staticBitmap => s.windowArgs p [(s.bitmap? e .bitmap).getD (.const "wxNullBitmap")] ""
  | .hyperlinkCtrl => s.windowArgs p [label, .text (e.text .url)] ""
  | .animationCtrl => s.windowArgs p [(s.animation? e).getD (.const "wxNullAnimation")] ""
  | .calendarCtrl => s.windowArgs p [.const "wxDefaultDateTime"] ""
  | .statusBar =>
    let style := e.style ""
    [s.window p, e.idArg] ++ (if style = "" then [] else [.const style])
  | .wizardPage => [s.window p]
  | .ribbonPage | .ribbonPanel => [s.window p, e.idArg, label]
  | .ribbonButtonBar => [s.window p, e.idArg]
  | .customControl =>
    let parameters := e.customParameters
    if parameters = "" then [s.window p, e.idArg] else [.raw parameters]
  | _ => s.windowArgs p [] ""

/-- The arguments that a sizer is created with. -/
def sizerArgs (s : Site) (p : Place) : List Expr :=
  let e := p.element
  let orientation (default : String) :=
    Expr.const (if e.text .orientation = "" then default else e.text .orientation)
  match p.kind with
  | .boxSizer => [orientation "wxHORIZONTAL"]
  | .verticalBoxSizer => [orientation "wxVERTICAL"]
  | .gridSizer | .flexGridSizer =>
    [.int (e.intOr .rows 0), .int (e.intOr .cols 2), .int (e.intOr .vgap 0),
      .int (e.intOr .hgap 0)]
  | .staticBoxSizer | .staticCheckboxBoxSizer | .staticRadioBtnBoxSizer =>
    [orientation "wxVERTICAL", s.window p, .text (e.text .label)]
  | _ => []

end Site

end FormDesign
