import FormDesign.Dialect.Spelling

/-!
# Events in the dialects

The library and the class of an event, and the statement that binds it to a handler. An inline
function can be bound in C++ only.
-/

namespace FormDesign

/-- The name of an event without `wxEVT_`. -/
def bareEvent (event : String) : String :=
  Text.dropStart event "wxEVT_"

/-- The name of an event as the scripting bindings know it. -/
def scriptedEvent (event : String) : String :=
  let name := bareEvent event
  if name = "CLOSE_WINDOW" then "CLOSE" else name

/-- The beginnings of event names and the libraries they belong to. -/
def eventLibraries : List (String × Library) :=
  [("STC_", .stc), ("HYPERLINK", .adv), ("CALENDAR", .adv), ("WIZARD", .adv), ("RIBBON", .ribbon),
    ("AUI", .aui), ("HTML", .html), ("RICHTEXT", .richText)]

/-- The library that an event belongs to. -/
def eventLibrary (event : String) : Library :=
  match eventLibraries.find? fun (start, _) => Text.startsWith (bareEvent event) start with
  | some (_, library) => library
  | none => .core

/-- Events by name and the classes of their objects. -/
def eventClasses : List (String × String) :=
  [("CLOSE_WINDOW", "wxCloseEvent"), ("INIT_DIALOG", "wxInitDialogEvent"), ("SIZE", "wxSizeEvent"),
    ("PAINT", "wxPaintEvent"), ("TIMER", "wxTimerEvent"), ("CONTEXT_MENU", "wxContextMenuEvent"),
    ("HYPERLINK", "wxHyperlinkEvent"), ("SPINCTRL", "wxSpinEvent"),
    ("COLLAPSIBLEPANE_CHANGED", "wxCollapsiblePaneEvent"),
    ("SPLITTER_SASH_POS_CHANGED", "wxSplitterEvent"),
    ("SPLITTER_SASH_POS_CHANGING", "wxSplitterEvent"), ("UPDATE_UI", "wxUpdateUIEvent"),
    ("SET_FOCUS", "wxFocusEvent"), ("KILL_FOCUS", "wxFocusEvent"), ("KEY_DOWN", "wxKeyEvent"),
    ("KEY_UP", "wxKeyEvent"), ("CHAR", "wxKeyEvent"), ("CHAR_HOOK", "wxKeyEvent"),
    ("MOTION", "wxMouseEvent")]

/-- The beginnings of event names and the classes of their objects. -/
def eventFamilies : List (String × String) :=
  [("LEFT_", "wxMouseEvent"), ("RIGHT_", "wxMouseEvent"), ("MIDDLE_", "wxMouseEvent"),
    ("MOUSE", "wxMouseEvent"), ("ENTER_WINDOW", "wxMouseEvent"), ("LEAVE_WINDOW", "wxMouseEvent"),
    ("CALENDAR_", "wxCalendarEvent"), ("STC_", "wxStyledTextEvent"), ("TREE_", "wxTreeEvent"),
    ("SCROLL_", "wxScrollEvent"), ("NOTEBOOK_", "wxBookCtrlEvent"),
    ("TREEBOOK_", "wxBookCtrlEvent"), ("CHOICEBOOK_", "wxBookCtrlEvent"),
    ("LISTBOOK_", "wxBookCtrlEvent"), ("BOOKCTRL_", "wxBookCtrlEvent"),
    ("AUINOTEBOOK_", "wxAuiNotebookEvent"), ("AUITOOLBAR_", "wxAuiToolBarEvent"),
    ("RIBBONBUTTONBAR_", "wxRibbonButtonBarEvent"), ("WIZARD_", "wxWizardEvent"),
    ("HTML_", "wxHtmlLinkEvent"), ("RICHTEXT_", "wxRichTextEvent")]

/-- The class of the object that a handler of the event is given. -/
def eventClass (event : String) : String :=
  let name := bareEvent event
  match eventClasses.find? fun (known, _) => known == name with
  | some (_, className) => className
  | none =>
    match eventFamilies.find? fun (start, _) => Text.startsWith name start with
    | some (_, className) => className
    | none => "wxCommandEvent"

/-- Whether a handler is written in place, with its bracket first. -/
def isInline (handler : String) : Bool :=
  Text.startsWhere handler (· == '[')

namespace Dialect

/-- The name of an event where it is bound. -/
def eventName (d : Dialect) (event : String) : String :=
  match d with
  | .cpp => event
  | .python => d.modulePath (eventLibrary event) ++ "EVT_" ++ scriptedEvent event
  | .ruby => "evt_" ++ Text.lower (scriptedEvent event)
  | .perl => "EVT_" ++ scriptedEvent event

/-- A handler where it is bound: a method of the form, or in C++ the inline function itself. -/
def handlerRef (d : Dialect) (className handler : String) : String :=
  match d with
  | .cpp => if isInline handler then handler else "&" ++ className ++ "::" ++ handler ++ ", this"
  | .python => "self." ++ handler
  | .ruby => ":" ++ d.methodName handler
  | .perl => "$self->can('" ++ handler ++ "')"

/-- The source of a binding where the language binds through an object. -/
def sourceExpr (d : Dialect) : BindSource → Option String
  | .form => none
  | .window v => some (d.varRef v)
  | .item id => some (d.expr id)

/-- The statement that binds an event, if the language can express it. -/
def binding (d : Dialect) (b : Binding) : Option String :=
  if isInline b.handler && d != .cpp then none
  else
    let event := d.eventName b.event
    let handler := d.handlerRef b.className b.handler
    some <| match d, b.source with
      | .cpp, .form => "Bind(" ++ event ++ ", " ++ handler ++ ");"
      | .cpp, .window v => d.varRef v ++ "->Bind(" ++ event ++ ", " ++ handler ++ ");"
      | .cpp, .item id => "Bind(" ++ event ++ ", " ++ handler ++ ", " ++ d.expr id ++ ");"
      | .python, .form => "self.Bind(" ++ event ++ ", " ++ handler ++ ")"
      | .python, .window v => d.varRef v ++ ".Bind(" ++ event ++ ", " ++ handler ++ ")"
      | .python, .item id =>
        "self.Bind(" ++ event ++ ", " ++ handler ++ ", id=" ++ d.expr id ++ ")"
      | .ruby, .form => event ++ "(" ++ handler ++ ")"
      | .ruby, .window v => event ++ "(" ++ d.varRef v ++ ".get_id, " ++ handler ++ ")"
      | .ruby, .item id => event ++ "(" ++ d.expr id ++ ", " ++ handler ++ ")"
      | .perl, .form => event ++ "($self, " ++ handler ++ ");"
      | .perl, .window v => event ++ "($self, " ++ d.varRef v ++ "->GetId(), " ++ handler ++ ");"
      | .perl, .item id => event ++ "($self, " ++ d.expr id ++ ", " ++ handler ++ ");"

end Dialect

end FormDesign
