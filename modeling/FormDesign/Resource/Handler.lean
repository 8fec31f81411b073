import FormDesign.Grouped
import FormDesign.Tree.Query

/-!
# Resource handlers

The handlers that load the objects of a resource. The toolkit registers most of them by itself;
those of some libraries have to be registered by the application.
-/

namespace FormDesign

/-- The handler that loads nodes of a kind, if they appear in resources at all. -/
def Kind.handler? (k : Kind) : Option String :=
  match k with
  | .project | .folder | .images | .popupTransientWindow | .bookPage | .timer
  | .contextMenuEvent => none
  | .dialog => some "wxDialogXmlHandler"
  | .frame => some "wxFrameXmlHandler"
  | .panelForm | .panel => some "wxPanelXmlHandler"
  | .wizard | .wizardPage => some "wxWizardXmlHandler"
  | .menuBarForm | .menuBar | .menu | .subMenu | .menuItem | .separator =>
    some "wxMenuXmlHandler"
  | .toolBarForm | .toolBar | .tool | .toolDropdown | .toolSeparator =>
    some "wxToolBarXmlHandler"
  | .auiToolBar => some "wxAuiToolBarXmlHandler"
  | .ribbonBarForm | .ribbonPage | .ribbonPanel | .ribbonButtonBar | .ribbonButton =>
    some "wxRibbonXmlHandler"
  | .boxSizer | .verticalBoxSizer | .gridSizer | .flexGridSizer | .staticBoxSizer
  | .staticCheckboxBoxSizer | .staticRadioBtnBoxSizer | .spacer => some "wxSizerXmlHandler"
  | .stdDialogButtonSizer => some "wxStdDialogButtonSizerXmlHandler"
  | .button => some "wxButtonXmlHandler"
  | .toggleButton => some "wxToggleButtonXmlHandler"
  | .staticText => some "wxStaticTextXmlHandler"
  | .textCtrl => some "wxTextCtrlXmlHandler"
  | .checkBox | .check3State => some "wxCheckBoxXmlHandler"
  | .radioButton => some "wxRadioButtonXmlHandler"
  | .choice => some "wxChoiceXmlHandler"
  | .comboBox => some "wxComboBoxXmlHandler"
  | .listBox => some "wxListBoxXmlHandler"
  | .spinCtrl => some "wxSpinCtrlXmlHandler"
  | .slider => some "wxSliderXmlHandler"
  | .gauge => some "wxGaugeXmlHandler"
  | .staticBitmap => some "wxStaticBitmapXmlHandler"
  | .staticLine => some "wxStaticLineXmlHandler"
  | .hyperlinkCtrl => some "wxHyperlinkCtrlXmlHandler"
  | .animationCtrl => some "wxAnimationCtrlXmlHandler"
  | .calendarCtrl => some "wxCalendarCtrlXmlHandler"
  | .treeCtrl => some "wxTreeCtrlXmlHandler"
  | .styledTextCtrl => some "wxStyledTextCtrlXmlHandler"
  | .richTextCtrl => some "wxRichTextCtrlXmlHandler"
  | .htmlWindow => some "wxHtmlWindowXmlHandler"
  | .statusBar => some "wxStatusBarXmlHandler"
  | .customControl => some "wxUnknownWidgetXmlHandler"
  | .scrolledWindow => some "wxScrolledWindowXmlHandler"
  | .splitterWindow => some "wxSplitterWindowXmlHandler"
  | .collapsiblePane => some "wxCollapsiblePaneXmlHandler"
  | .notebook => some "wxNotebookXmlHandler"
  | .treebook => some "wxTreebookXmlHandler"
  | .choicebook => some "wxChoicebookXmlHandler"
  | .listbook => some "wxListbookXmlHandler"
  | .simplebook => some "wxSimplebookXmlHandler"
  | .auiNotebook => some "wxAuiXmlHandler"

/-- The handlers that an application has to register itself. -/
def explicitHandlers : List String :=
  ["wxAuiToolBarXmlHandler", "wxAuiXmlHandler", "wxRibbonXmlHandler",
    "wxRichTextCtrlXmlHandler", "wxStyledTextCtrlXmlHandler"]

/-- Whether an application has to register a handler itself. -/
def needsRegistration (handler : String) : Bool :=
  explicitHandlers.contains handler

/-- Every handler that the subtree at a node needs, each once and sorted by name. -/
def requiredHandlers (t : Tree) (id : Nat) : List String :=
  Sorted.ofList ((t.descendants id).filterMap fun n => n.kind.handler?)

end FormDesign
