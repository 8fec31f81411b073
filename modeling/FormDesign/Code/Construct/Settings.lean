import FormDesign.Code.Construct.Site

/-!
# Settings

The calls that follow the creation of a control: what every window can be told, and what only its
kind understands.
-/

namespace FormDesign

namespace Site

/-- What any window can be told. -/
def windowSettings (s : Site) (p : Place) : List Step :=
  let e := p.element
  let v := s.var p.item
  let call := Step.call (.var v)
  Step.when (e.text .tooltip ≠ "") (call "SetToolTip" [.text (e.text .tooltip)])
    ++ ((givenPair? (e.text .minSize)).map fun (w, h) => call "SetMinSize" [.sizeOf w h]).toList
    ++ Step.when (e.flag .disabled) (call "Enable" [.bool false])
    ++ Step.when (e.flag .hidden) (call "Hide" [])
    ++ Step.when (e.flag .focus) (call "SetFocus" [])
    ++ (e.validator?.map (Step.validate v)).toList

/-- The number of a scaling mode. -/
def scaleMode (text : String) : Int :=
  if text = "Fill" then 1
  else if text = "AspectFit" then 2
  else if text = "AspectFill" then 3
  else 0

/-- Links a wizard page to the one before it. The first page takes part in the size of the page
area. -/
def chainPage (s : Site) (p : Place) : List Step :=
  let page := Expr.var (s.var p.item)
  if p.above.isEmpty then []
  else
    match p.before.find? fun i => i.kind == .wizardPage with
    | some previous => [Step.call (.var (s.var previous)) "Chain" [page]]
    | none => [Step.call (.result (.call .form "GetPageAreaSizer" [])) "Add" [page]]

/-- What only controls of its kind can be told. -/
def kindSettings (s : Site) (p : Place) : List Step :=
  let e := p.element
  let call := Step.call (.var (s.var p.item))
  let setBitmap := ((s.bitmap? e .bitmap).map fun b => call "SetBitmap" [b]).toList
  match p.kind with
  | .checkBox | .radioButton => Step.when (e.flag .checked) (call "SetValue" [.bool true])
  | .check3State =>
    let state := e.text .initialState
    Step.when (state ≠ "" && state ≠ "wxCHK_UNCHECKED") (call "Set3StateValue" [.const state])
  | .choice | .listBox | .comboBox =>
    let style := e.style ""
    Step.when (style ≠ "") (call "SetWindowStyleFlag" [.const style])
      ++ (choices (e.text .choices)).map (fun item => call "Append" [.text item])
      ++ Step.when (e.hasValue .selection && 0 ≤ e.int .selection)
        (call "SetSelection" [.int (e.int .selection)])
  | .button => setBitmap
  | .toggleButton => Step.when (e.flag .checked) (call "SetValue" [.bool true]) ++ setBitmap
  | .staticText =>
    Step.when (e.flag .markup) (call "SetLabelMarkup" [.text (e.text .label)])
      ++ Step.when (0 < e.int .wrap) (call "Wrap" [.int (e.int .wrap)])
  | .staticBitmap =>
    let mode := scaleMode (e.text .scaleMode)
    Step.when (mode ≠ 0) (call "SetScaleMode" [.int mode])
  | .gauge => Step.when (0 < e.int .value) (call "SetValue" [.int (e.int .value)])
  | .collapsiblePane =>
    Step.when (e.hasProp .collapsed && !e.flag .collapsed) (call "Expand" [])
  | .scrolledWindow => [call "SetScrollRate" [.int 5, .int 5]]
  | .wizardPage => s.chainPage p
  | _ => []

/-! ## The form -/

/-- What the form itself is told before anything is created in it. -/
def formSettings (s : Site) (e : Element) : List Step :=
  let call := Step.call .form
  let icon :=
    if e.kind = .dialog || e.kind = .frame then
      (s.bitmap? e .icon).map fun b => call "SetIcon" [.call (.result b) "GetIconFor" [.self]]
    else none
  let calls :=
    ((givenPair? (e.text .minSize)).map fun (w, h) => call "SetMinSize" [.sizeOf w h]).toList
      ++ icon.toList
      ++ Step.when (e.text .tooltip ≠ "") (call "SetToolTip" [.text (e.text .tooltip)])
  if calls.isEmpty then [] else calls ++ [.gap]

/-- What the form is told when everything in it exists. -/
def formFinish (e : Element) : List Step :=
  match e.kind with
  | .toolBarForm | .ribbonBarForm => [Step.call .form "Realize" []]
  | .dialog | .frame =>
    let center := e.text .center
    if center ≠ "" && center ≠ "no" then [.gap, Step.call .form "Centre" [.const center]] else []
  | _ => []

end Site

end FormDesign
