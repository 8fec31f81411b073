import FormDesign.Resource.Part

/-!
# Controls in the resource

What the resource says of a control besides what every window can be told.
-/

namespace FormDesign.Element

/-- The items of a list of choices. -/
def choiceTags (e : Element) : List Xml :=
  let items := choices (e.text .choices)
  (if items = [] then [] else [.element "content" [] none (items.map (Xml.leaf "item"))])
    ++ if e.hasValue .selection && 0 ≤ e.int .selection then e.textTag .selection "selection"
      else []

/-- What only controls of its kind have. -/
def kindTags (e : Element) (comments : Bool) : List Xml :=
  let label := e.textTag .label "label"
  let bitmap := e.bitmapTag comments .bitmap "bitmap"
  match e.kind with
  | .button => label ++ bitmap
  | .toggleButton => label ++ e.flagTag .checked "checked" ++ bitmap
  | .staticText =>
    label
      ++ (if e.hasValue .wrap && 0 ≤ e.int .wrap then e.textTag .wrap "wrap" else [])
      ++ e.flagTag .markup "markup"
  | .textCtrl | .richTextCtrl => e.textTag .value "value"
  | .checkBox | .check3State => label ++ e.flagTag .checked "checked"
  | .radioButton => label ++ e.flagTag .checked "value"
  | .comboBox => e.textTag .value "value" ++ e.choiceTags
  | .choice | .listBox => e.choiceTags
  | .spinCtrl => e.textTag .initial "value" ++ e.textTag .min "min" ++ e.textTag .max "max"
  | .slider => e.textTag .position "value" ++ e.textTag .min "min" ++ e.textTag .max "max"
  | .gauge => e.textTag .max "range" ++ e.textTag .position "value"
  | .staticBitmap => bitmap
  | .hyperlinkCtrl => label ++ e.textTag .url "url"
  | .htmlWindow => e.textTag .url "url"
  | .animationCtrl =>
    ((ImageDescription.parse? (e.text .animation)).map fun d => Xml.leaf "animation" d.path).toList
  | .splitterWindow =>
    let direction :=
      if e.text .splitMode = "wxSPLIT_HORIZONTAL" then "horizontal" else "vertical"
    e.textTag .sashPos "sashpos" ++ [.leaf "orientation" direction]
  | .collapsiblePane => label ++ e.flagTag .collapsed "collapsed"
  | .wizardPage => bitmap
  | .ribbonPage => label ++ e.bitmapTag comments .icon "icon"
  | .ribbonPanel => label
  | .statusBar => [.leaf "fields" "1"]
  | _ => []

/-- The style that a kind implies. -/
def impliedStyle (e : Element) : String :=
  if e.kind = .check3State then "wxCHK_3STATE" else ""

/-- The object of a control. -/
def widgetPart (e : Element) (comments : Bool) : Part :=
  let className := if e.kind = .customControl then "unknown" else e.kind.className
  e.part className
    (e.kindTags comments ++ e.placementTags e.impliedStyle ++ e.windowTags comments)

end FormDesign.Element
