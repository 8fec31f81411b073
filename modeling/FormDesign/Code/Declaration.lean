import FormDesign.Dialect.Member
import FormDesign.Tree.Node

/-!
# Declarations of nodes

What is declared for a node: the visibility of its variable, the name it gets when the design gives
none, the class it instantiates, and the variable a validator ties to it.
-/

namespace FormDesign

/-! ## Visibility -/

/-- Who can see the variable of a node. -/
inductive Access
  | publicMember
  | protectedMember
  /-- A local variable of the constructor. -/
  | temporary
  deriving DecidableEq

namespace Access

def name : Access → String
  | .publicMember => "Public"
  | .protectedMember => "Protected"
  | .temporary => "Local"

/-- The visibility of kinds whose nodes do not say. -/
def default (k : Kind) : Access :=
  match k.category with
  | .widget | .container | .book | .timer => .protectedMember
  | _ => .temporary

/-- The visibility of the variable of a node. -/
def of (e : Element) : Access :=
  let access := e.text .classAccess
  if access = "public:" then .publicMember
  else if access = "protected:" then .protectedMember
  else if access = "none" then .temporary
  else default e.kind

/-- Whether the variable is a member of the class. -/
def isMember (a : Access) : Bool :=
  a ≠ .temporary

end Access

namespace Element

/-! ## Names -/

/-- The name for nodes without one: the class in snake case, without `wx`. -/
def defaultVarName (e : Element) : String :=
  let className := if e.kind.className = "" then e.kind.name else e.kind.className
  Text.snakeCase (Text.dropStart className "wx")

/-- How a warning refers to the node. -/
def describe (e : Element) : String :=
  if e.varName = "" then e.kind.name else e.kind.name ++ " (" ++ e.varName ++ ")"

/-- A name without every `wx` in front. -/
def dropToolkitStart : List Char → List Char
  | 'w' :: 'x' :: rest => dropToolkitStart rest
  | s => s

/-- The class generated for a form. One without a name is called after the class it extends. -/
def generatedClass (e : Element) : String :=
  if e.className ≠ "" then e.className
  else String.ofList (dropToolkitStart e.kind.className.toList) ++ "Base"

/-- The name of the file generated for a form, without extension. -/
def generatedFile (e : Element) : String :=
  if e.text .baseFile ≠ "" then e.text .baseFile else Text.snakeCase e.generatedClass

/-! ## Classes -/

/-- How the names of generic variants begin. -/
def genericStart : String := "wxGeneric"

/-- The generic variant of its class that the node asks for, by its properties or by its
subclass. -/
def genericVariant (e : Element) : Option String :=
  let bySubclass := Text.startsWith (e.text .subclass) genericStart
  let given (b : Bool) (name : String) := if b then some name else none
  match e.kind with
  | .animationCtrl =>
    given (Text.contains (e.text .animation) ".ani" || bySubclass) "wxGenericAnimationCtrl"
  | .hyperlinkCtrl => given (!e.flag .underlined || bySubclass) "wxGenericHyperlinkCtrl"
  | .staticBitmap =>
    let mode := e.text .scaleMode
    given (mode ≠ "" && mode ≠ "None") "wxGenericStaticBitmap"
  | .staticText => given (e.flag .markup && e.int .wrap ≤ 0) "wxGenericStaticText"
  | .calendarCtrl => given bySubclass "wxGenericCalendarCtrl"
  | .treeCtrl => given bySubclass "wxGenericTreeCtrl"
  | _ => none

/-- The class that replaces the kind's own: that of a custom control, or a subclass that is no
generic variant. -/
def ownClass? (e : Element) : Option String :=
  let subclass := e.text .subclass
  if e.kind = .customControl then some e.className
  else if subclass ≠ "" && !Text.startsWith subclass genericStart then some subclass
  else none

end Element

/-- The class that a node instantiates in a language. -/
structure ResolvedClass where
  /-- The class, spelled for the language. -/
  token : String
  /-- The class as the toolkit calls it. -/
  className : String
  library : Library
  byValue : Bool
  /-- What is amiss when the language lacks the variant asked for. -/
  warning : Option String

/-- The class that a node instantiates, spelled for a dialect. -/
def resolveClass (d : Dialect) (e : Element) : ResolvedClass :=
  let library := e.kind.library
  let byValue := e.kind = .timer
  let regular := e.kind.className
  match e.ownClass? with
  | some name => { token := name, className := name, library, byValue, warning := none }
  | none =>
    match e.genericVariant with
    | none =>
      { token := d.classToken regular library, className := regular, library, byValue,
        warning := none }
    | some variant =>
      match d.genericToken? variant with
      | some token => { token, className := variant, library, byValue, warning := none }
      | none =>
        { token := d.classToken regular library, className := regular, library, byValue,
          warning := some <| d.name ++ " has no " ++ variant ++ "; " ++ e.describe ++ " uses "
            ++ regular ++ " instead" }

/-! ## Validators -/

namespace Kind

/-- The type of validator variables whose nodes do not say. -/
def validatorType : Kind → String
  | .checkBox | .toggleButton | .radioButton => "bool"
  | .check3State | .choice | .listBox | .spinCtrl | .slider | .gauge => "int"
  | _ => "wxString"

end Kind

namespace Element

/-- The types of validator variables that hold a number. -/
def numberTypes : List String :=
  ["int", "short", "long", "double", "float", "unsigned int", "unsigned long"]

/-- The first of the node's values that is not blank. -/
def firstNumber (e : Element) : InitialValue :=
  let values := [Property.value, .initial, .selection, .position].map fun p => Text.trim (e.text p)
  match values.find? (· ≠ "") with
  | some value => .number value
  | none => .absent

/-- The initial value of a validator variable of some type. -/
def initialValue (e : Element) (dataType : String) : InitialValue :=
  if dataType = "bool" then .bool (e.flag .checked || e.text .initialState = "wxCHK_CHECKED")
  else if numberTypes.contains dataType then e.firstNumber
  else if dataType = "wxString" || dataType = "wxFileName" then
    .text (if e.kind = .staticText then e.text .label else e.text .value)
  else .absent

/-- The variable that a validator ties to the node, if the node names one. -/
def validator? (e : Element) : Option ValidatorVar :=
  let name := Text.trim (e.text .validatorVariable)
  if name = "" then none
  else
    let given := e.text .validatorDataType
    let dataType := if given = "" then e.kind.validatorType else given
    some { name, dataType, init := e.initialValue dataType }

end Element

end FormDesign
