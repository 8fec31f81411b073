import FormDesign.Text.Split
import FormDesign.Text.Numeral

/-!
# Properties

The names of the properties a node may carry, the type of value each of them holds, and how a
stored text is read as a truth value or a number. Values are kept as the text of the project file.
-/

namespace FormDesign

/-- What the text of a property stands for. -/
inductive ValueType
  | text
  | bool
  | int
  /-- A name, or a name and a literal with an equals sign between. -/
  | identifier
  /-- A kind of image, a path and a size, with semicolons between. -/
  | image
  /-- The same as an image, for animation files. -/
  | animation
  /-- One value of a fixed set. -/
  | choice
  /-- Flags with bars between. -/
  | flags
  deriving DecidableEq

namespace ValueType

/-- The short name of the type in messages. -/
def name : ValueType → String
  | .text => "string"
  | .bool => "bool"
  | .int => "int"
  | .identifier => "id"
  | .image => "image"
  | .animation => "animation"
  | .choice => "option"
  | .flags => "bitlist"

/-- Types whose values name an image file. -/
def isImageLike (t : ValueType) : Bool :=
  t == .image || t == .animation

end ValueType

/-- The properties that generation reads. -/
inductive Property
  | className
  | baseFile
  | varName
  | classAccess
  | varComment
  | subclass
  | subclassHeader
  | id
  | platforms
  | label
  | title
  | value
  | tooltip
  | url
  | choices
  | checked
  | initialState
  | initial
  | selection
  | position
  | min
  | max
  | select
  | collapsed
  | underlined
  | markup
  | wrap
  | scaleMode
  | shortcut
  | helpString
  | kind
  | bitmap
  | icon
  | animation
  | validatorVariable
  | validatorDataType
  | orientation
  | rows
  | cols
  | vgap
  | hgap
  | flags
  | alignment
  | borders
  | borderSize
  | proportion
  | width
  | height
  | size
  | minSize
  | pos
  | sashPos
  | splitMode
  | style
  | windowStyle
  | hidden
  | disabled
  | focus
  | center
  | persistName
  | okButton
  | yesButton
  | saveButton
  | applyButton
  | noButton
  | cancelButton
  | closeButton
  | helpButton
  | contextHelpButton
  | header
  | parameters
  | namespace
  deriving DecidableEq

namespace Property

/-- Every property, in the order of declaration. -/
def all : List Property :=
  [.className, .baseFile, .varName, .classAccess, .varComment, .subclass, .subclassHeader, .id,
   .platforms, .label, .title, .value, .tooltip, .url, .choices, .checked, .initialState,
   .initial, .selection, .position, .min, .max, .select, .collapsed, .underlined, .markup, .wrap,
   .scaleMode, .shortcut, .helpString, .kind, .bitmap, .icon, .animation, .validatorVariable,
   .validatorDataType, .orientation, .rows, .cols, .vgap, .hgap, .flags, .alignment, .borders,
   .borderSize, .proportion, .width, .height, .size, .minSize, .pos, .sashPos, .splitMode,
   .style, .windowStyle, .hidden, .disabled, .focus, .center, .persistName, .okButton,
   .yesButton, .saveButton, .applyButton, .noButton, .cancelButton, .closeButton, .helpButton,
   .contextHelpButton, .header, .parameters, .namespace]

theorem mem_all (p : Property) : p ∈ all := by
  cases p <;> decide

/-- The name of the property in project files. -/
def name : Property → String
  | .className => "class_name"
  | .baseFile => "base_file"
  | .varName => "var_name"
  | .classAccess => "class_access"
  | .varComment => "var_comment"
  | .subclass => "subclass"
  | .subclassHeader => "subclass_header"
  | .id => "id"
  | .platforms => "platforms"
  | .label => "label"
  | .title => "title"
  | .value => "value"
  | .tooltip => "tooltip"
  | .url => "url"
  | .choices => "contents"
  | .checked => "checked"
  | .initialState => "initial_state"
  | .initial => "initial"
  | .selection => "selection_int"
  | .position => "position"
  | .min => "min"
  | .max => "max"
  | .select => "select"
  | .collapsed => "collapsed"
  | .underlined => "underlined"
  | .markup => "markup"
  | .wrap => "wrap"
  | .scaleMode => "scale_mode"
  | .shortcut => "shortcut"
  | .helpString => "help"
  | .kind => "kind"
  | .bitmap => "bitmap"
  | .icon => "icon"
  | .animation => "animation"
  | .validatorVariable => "validator_variable"
  | .validatorDataType => "validator_data_type"
  | .orientation => "orientation"
  | .rows => "rows"
  | .cols => "cols"
  | .vgap => "vgap"
  | .hgap => "hgap"
  | .flags => "flags"
  | .alignment => "alignment"
  | .borders => "borders"
  | .borderSize => "border_size"
  | .proportion => "proportion"
  | .width => "width"
  | .height => "height"
  | .size => "size"
  | .minSize => "minimum_size"
  | .pos => "pos"
  | .sashPos => "sashpos"
  | .splitMode => "splitmode"
  | .style => "style"
  | .windowStyle => "window_style"
  | .hidden => "hidden"
  | .disabled => "disabled"
  | .focus => "focus"
  | .center => "center"
  | .persistName => "persist_name"
  | .okButton => "OK"
  | .yesButton => "Yes"
  | .saveButton => "Save"
  | .applyButton => "Apply"
  | .noButton => "No"
  | .cancelButton => "Cancel"
  | .closeButton => "Close"
  | .helpButton => "Help"
  | .contextHelpButton => "ContextHelp"
  | .header => "header"
  | .parameters => "parameters"
  | .namespace => "namespace"

/-- The property with the given name in project files. -/
def ofName? (s : String) : Option Property :=
  all.find? fun p => p.name == s

/-- The type of value the property holds. -/
def valueType : Property → ValueType
  | .id => .identifier
  | .bitmap | .icon => .image
  | .animation => .animation
  | .checked | .select | .collapsed | .underlined | .markup | .hidden | .disabled | .focus
  | .okButton | .yesButton | .saveButton | .applyButton | .noButton | .cancelButton
  | .closeButton | .helpButton | .contextHelpButton => .bool
  | .initial | .selection | .position | .min | .max | .wrap | .rows | .cols | .vgap | .hgap
  | .borderSize | .proportion | .width | .height | .sashPos => .int
  | .classAccess | .initialState | .scaleMode | .kind | .validatorDataType | .orientation
  | .splitMode | .center => .choice
  | .platforms | .flags | .alignment | .borders | .style | .windowStyle => .flags
  | _ => .text

end Property

/-! ## Reading a stored text -/

/-- Only `1` and `true` are true. -/
def truth (value : String) : Bool :=
  let v := Text.trim value
  v == "1" || v == "true"

/-- The number a text stands for, if it is one. -/
def number? (value : String) : Option Int :=
  Text.Numeral.int64? (Text.trim value)

/-- The number a text stands for, 0 when it is none. -/
def number (value : String) : Int :=
  (number? value).getD 0

end FormDesign
