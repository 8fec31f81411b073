/-!
# Kinds of design nodes

Every node of a design has a kind: a form, a sizer, a widget and so on. The set of kinds is closed.
A kind fixes the name used in project files, the window class it creates, the library and the
header that declare the class, and the category that decides where the node may stand.
-/

namespace FormDesign

/-- Broad category of a kind. -/
inductive Category
  | project
  | folder
  | images
  | form
  | sizer
  | spacer
  | widget
  | container
  | book
  | bookPage
  | menuBar
  | menu
  | menuItem
  | toolBar
  | tool
  | timer
  | contextMenu
  deriving DecidableEq

def Category.name : Category → String
  | .project => "Project"
  | .folder => "Folder"
  | .images => "Images"
  | .form => "Form"
  | .sizer => "Sizer"
  | .spacer => "Spacer"
  | .widget => "Widget"
  | .container => "Container"
  | .book => "Book"
  | .bookPage => "BookPage"
  | .menuBar => "MenuBar"
  | .menu => "Menu"
  | .menuItem => "MenuItem"
  | .toolBar => "ToolBar"
  | .tool => "Tool"
  | .timer => "Timer"
  | .contextMenu => "ContextMenu"

/-- The toolkit library a class lives in. -/
inductive Library
  | core
  | adv
  | aui
  | html
  | ribbon
  | richText
  | stc
  deriving DecidableEq

namespace Library

def all : List Library := [.core, .adv, .aui, .html, .ribbon, .richText, .stc]

def name : Library → String
  | .core => "Core"
  | .adv => "Adv"
  | .aui => "Aui"
  | .html => "Html"
  | .ribbon => "Ribbon"
  | .richText => "RichText"
  | .stc => "Stc"

/-- The library with the given name. -/
def ofName? (s : String) : Option Library :=
  all.find? fun l => l.name == s

end Library

/-- The kinds of nodes a design may hold. -/
inductive Kind
  | project
  | folder
  | images
  | dialog
  | frame
  | panelForm
  | popupTransientWindow
  | wizard
  | menuBarForm
  | toolBarForm
  | ribbonBarForm
  | boxSizer
  | verticalBoxSizer
  | gridSizer
  | flexGridSizer
  | staticBoxSizer
  | staticCheckboxBoxSizer
  | staticRadioBtnBoxSizer
  | stdDialogButtonSizer
  | spacer
  | button
  | toggleButton
  | staticText
  | textCtrl
  | checkBox
  | check3State
  | radioButton
  | choice
  | comboBox
  | listBox
  | spinCtrl
  | slider
  | gauge
  | staticBitmap
  | staticLine
  | hyperlinkCtrl
  | animationCtrl
  | calendarCtrl
  | treeCtrl
  | styledTextCtrl
  | richTextCtrl
  | htmlWindow
  | statusBar
  | customControl
  | panel
  | scrolledWindow
  | splitterWindow
  | collapsiblePane
  | wizardPage
  | ribbonPage
  | ribbonPanel
  | ribbonButtonBar
  | notebook
  | treebook
  | choicebook
  | listbook
  | simplebook
  | auiNotebook
  | bookPage
  | menuBar
  | menu
  | subMenu
  | menuItem
  | separator
  | toolBar
  | auiToolBar
  | tool
  | toolDropdown
  | toolSeparator
  | ribbonButton
  | timer
  | contextMenuEvent
  deriving DecidableEq

namespace Kind

/-- Every kind, in the order of declaration. -/
def all : List Kind :=
  [.project, .folder, .images, .dialog, .frame, .panelForm, .popupTransientWindow, .wizard,
   .menuBarForm, .toolBarForm, .ribbonBarForm, .boxSizer, .verticalBoxSizer, .gridSizer,
   .flexGridSizer, .staticBoxSizer, .staticCheckboxBoxSizer, .staticRadioBtnBoxSizer,
   .stdDialogButtonSizer, .spacer, .button, .toggleButton, .staticText, .textCtrl, .checkBox,
   .check3State, .radioButton, .choice, .comboBox, .listBox, .spinCtrl, .slider, .gauge,
   .staticBitmap, .staticLine, .hyperlinkCtrl, .animationCtrl, .calendarCtrl, .treeCtrl,
   .styledTextCtrl, .richTextCtrl, .htmlWindow, .statusBar, .customControl, .panel,
   .scrolledWindow, .splitterWindow, .collapsiblePane, .wizardPage, .ribbonPage, .ribbonPanel,
   .ribbonButtonBar, .notebook, .treebook, .choicebook, .listbook, .simplebook, .auiNotebook,
   .bookPage, .menuBar, .menu, .subMenu, .menuItem, .separator, .toolBar, .auiToolBar, .tool,
   .toolDropdown, .toolSeparator, .ribbonButton, .timer, .contextMenuEvent]

theorem mem_all (k : Kind) : k ∈ all := by
  cases k <;> decide

/-- The name of the kind in project files. -/
def name : Kind → String
  | .project => "Project"
  | .folder => "folder"
  | .images => "Images"
  | .dialog => "wxDialog"
  | .frame => "wxFrame"
  | .panelForm => "PanelForm"
  | .popupTransientWindow => "wxPopupTransientWindow"
  | .wizard => "wxWizard"
  | .menuBarForm => "MenuBar"
  | .toolBarForm => "ToolBar"
  | .ribbonBarForm => "RibbonBar"
  | .boxSizer => "wxBoxSizer"
  | .verticalBoxSizer => "VerticalBoxSizer"
  | .gridSizer => "wxGridSizer"
  | .flexGridSizer => "wxFlexGridSizer"
  | .staticBoxSizer => "wxStaticBoxSizer"
  | .staticCheckboxBoxSizer => "StaticCheckboxBoxSizer"
  | .staticRadioBtnBoxSizer => "StaticRadioBtnBoxSizer"
  | .stdDialogButtonSizer => "wxStdDialogButtonSizer"
  | .spacer => "spacer"
  | .button => "wxButton"
  | .toggleButton => "wxToggleButton"
  | .staticText => "wxStaticText"
  | .textCtrl => "wxTextCtrl"
  | .checkBox => "wxCheckBox"
  | .check3State => "Check3State"
  | .radioButton => "wxRadioButton"
  | .choice => "wxChoice"
  | .comboBox => "wxComboBox"
  | .listBox => "wxListBox"
  | .spinCtrl => "wxSpinCtrl"
  | .slider => "wxSlider"
  | .gauge => "wxGauge"
  | .staticBitmap => "wxStaticBitmap"
  | .staticLine => "wxStaticLine"
  | .hyperlinkCtrl => "wxHyperlinkCtrl"
  | .animationCtrl => "wxAnimationCtrl"
  | .calendarCtrl => "wxCalendarCtrl"
  | .treeCtrl => "wxTreeCtrl"
  | .styledTextCtrl => "wxStyledTextCtrl"
  | .richTextCtrl => "wxRichTextCtrl"
  | .htmlWindow => "wxHtmlWindow"
  | .statusBar => "wxStatusBar"
  | .customControl => "CustomControl"
  | .panel => "wxPanel"
  | .scrolledWindow => "wxScrolledWindow"
  | .splitterWindow => "wxSplitterWindow"
  | .collapsiblePane => "wxCollapsiblePane"
  | .wizardPage => "wxWizardPageSimple"
  | .ribbonPage => "wxRibbonPage"
  | .ribbonPanel => "wxRibbonPanel"
  | .ribbonButtonBar => "wxRibbonButtonBar"
  | .notebook => "wxNotebook"
  | .treebook => "wxTreebook"
  | .choicebook => "wxChoicebook"
  | .listbook => "wxListbook"
  | .simplebook => "wxSimplebook"
  | .auiNotebook => "wxAuiNotebook"
  | .bookPage => "BookPage"
  | .menuBar => "wxMenuBar"
  | .menu => "wxMenu"
  | .subMenu => "submenu"
  | .menuItem => "wxMenuItem"
  | .separator => "separator"
  | .toolBar => "wxToolBar"
  | .auiToolBar => "wxAuiToolBar"
  | .tool => "tool"
  | .toolDropdown => "tool_dropdown"
  | .toolSeparator => "toolSeparator"
  | .ribbonButton => "ribbonButton"
  | .timer => "wxTimer"
  | .contextMenuEvent => "wxContextMenuEvent"

/-- The kind with the given name in project files. -/
def ofName? (s : String) : Option Kind :=
  all.find? fun k => k.name == s

/-- The window class that nodes of this kind create. Kinds without a variable of their own have
none, and a custom control takes its class from a property. -/
def className : Kind → String
  | .project | .folder | .images | .spacer | .separator | .tool | .toolDropdown | .toolSeparator
  | .ribbonButton | .customControl => ""
  | .panelForm | .bookPage => "wxPanel"
  | .menuBarForm => "wxMenuBar"
  | .toolBarForm => "wxToolBar"
  | .ribbonBarForm => "wxRibbonBar"
  | .verticalBoxSizer => "wxBoxSizer"
  | .staticCheckboxBoxSizer | .staticRadioBtnBoxSizer => "wxStaticBoxSizer"
  | .check3State => "wxCheckBox"
  | .subMenu => "wxMenu"
  | other => other.name

def category : Kind → Category
  | .project => .project
  | .folder => .folder
  | .images => .images
  | .dialog | .frame | .panelForm | .popupTransientWindow | .wizard | .menuBarForm | .toolBarForm
  | .ribbonBarForm => .form
  | .boxSizer | .verticalBoxSizer | .gridSizer | .flexGridSizer | .staticBoxSizer
  | .staticCheckboxBoxSizer | .staticRadioBtnBoxSizer | .stdDialogButtonSizer => .sizer
  | .spacer => .spacer
  | .panel | .scrolledWindow | .splitterWindow | .collapsiblePane | .wizardPage | .ribbonPage
  | .ribbonPanel | .ribbonButtonBar => .container
  | .notebook | .treebook | .choicebook | .listbook | .simplebook | .auiNotebook => .book
  | .bookPage => .bookPage
  | .menuBar => .menuBar
  | .menu | .subMenu => .menu
  | .menuItem | .separator => .menuItem
  | .toolBar | .auiToolBar => .toolBar
  | .tool | .toolDropdown | .toolSeparator | .ribbonButton => .tool
  | .timer => .timer
  | .contextMenuEvent => .contextMenu
  | .button | .toggleButton | .staticText | .textCtrl | .checkBox | .check3State | .radioButton
  | .choice | .comboBox | .listBox | .spinCtrl | .slider | .gauge | .staticBitmap | .staticLine
  | .hyperlinkCtrl | .animationCtrl | .calendarCtrl | .treeCtrl | .styledTextCtrl | .richTextCtrl
  | .htmlWindow | .statusBar | .customControl => .widget

/-- The library the class lives in. -/
def library : Kind → Library
  | .wizard | .wizardPage | .hyperlinkCtrl | .animationCtrl | .calendarCtrl => .adv
  | .auiNotebook | .auiToolBar => .aui
  | .htmlWindow => .html
  | .ribbonBarForm | .ribbonPage | .ribbonPanel | .ribbonButtonBar | .ribbonButton => .ribbon
  | .richTextCtrl => .richText
  | .styledTextCtrl => .stc
  | _ => .core

/-- The header that declares the class. -/
def header? : Kind → Option String
  | .dialog => some "wx/dialog.h"
  | .frame => some "wx/frame.h"
  | .panelForm | .panel | .bookPage => some "wx/panel.h"
  | .popupTransientWindow => some "wx/popupwin.h"
  | .wizard | .wizardPage => some "wx/wizard.h"
  | .menuBarForm | .menuBar => some "wx/menu.h"
  | .menu | .subMenu | .menuItem => some "wx/menu.h"
  | .toolBarForm | .toolBar => some "wx/toolbar.h"
  | .auiToolBar => some "wx/aui/auibar.h"
  | .ribbonBarForm => some "wx/ribbon/bar.h"
  | .ribbonPage => some "wx/ribbon/page.h"
  | .ribbonPanel => some "wx/ribbon/panel.h"
  | .ribbonButtonBar => some "wx/ribbon/buttonbar.h"
  | .boxSizer | .verticalBoxSizer => some "wx/sizer.h"
  | .gridSizer | .flexGridSizer => some "wx/sizer.h"
  | .staticBoxSizer | .staticCheckboxBoxSizer | .staticRadioBtnBoxSizer => some "wx/statbox.h"
  | .stdDialogButtonSizer => some "wx/button.h"
  | .button => some "wx/button.h"
  | .toggleButton => some "wx/tglbtn.h"
  | .staticText => some "wx/stattext.h"
  | .textCtrl => some "wx/textctrl.h"
  | .checkBox | .check3State => some "wx/checkbox.h"
  | .radioButton => some "wx/radiobut.h"
  | .choice => some "wx/choice.h"
  | .comboBox => some "wx/combobox.h"
  | .listBox => some "wx/listbox.h"
  | .spinCtrl => some "wx/spinctrl.h"
  | .slider => some "wx/slider.h"
  | .gauge => some "wx/gauge.h"
  | .staticBitmap => some "wx/statbmp.h"
  | .staticLine => some "wx/statline.h"
  | .hyperlinkCtrl => some "wx/hyperlink.h"
  | .animationCtrl => some "wx/animate.h"
  | .calendarCtrl => some "wx/calctrl.h"
  | .treeCtrl => some "wx/treectrl.h"
  | .styledTextCtrl => some "wx/stc/stc.h"
  | .richTextCtrl => some "wx/richtext/richtextctrl.h"
  | .htmlWindow => some "wx/html/htmlwin.h"
  | .statusBar => some "wx/statusbr.h"
  | .scrolledWindow => some "wx/scrolwin.h"
  | .splitterWindow => some "wx/splitter.h"
  | .collapsiblePane => some "wx/collpane.h"
  | .notebook => some "wx/notebook.h"
  | .treebook => some "wx/treebook.h"
  | .choicebook => some "wx/choicebk.h"
  | .listbook => some "wx/listbook.h"
  | .simplebook => some "wx/simplebook.h"
  | .auiNotebook => some "wx/aui/auibook.h"
  | .timer => some "wx/timer.h"
  | _ => none

/-- Kinds that become a generated class of their own. -/
def isForm (k : Kind) : Bool := k.category == .form

/-- Kinds that hold forms or images of a project but are no forms. -/
def isOutline (k : Kind) : Bool :=
  match k.category with
  | .project | .folder | .images => true
  | _ => false

/-- Sizers, without spacers. -/
def isSizer (k : Kind) : Bool := k.category == .sizer

/-- Kinds that other windows are created in. -/
def isContainer (k : Kind) : Bool :=
  match k.category with
  | .form | .container | .book | .bookPage => true
  | _ => false

/-- The notebook family. -/
def isBook (k : Kind) : Bool := k.category == .book

/-- The bars that are forms but cannot be shown on their own. -/
def isBarForm : Kind → Bool
  | .menuBarForm | .toolBarForm | .ribbonBarForm => true
  | _ => false

/-- Whether a node of this kind has a class of its own to instantiate. -/
def hasClass (k : Kind) : Bool :=
  k.className != "" || k == .customControl

end Kind

end FormDesign
