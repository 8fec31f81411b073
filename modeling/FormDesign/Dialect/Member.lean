import FormDesign.Dialect.Spelling

/-!
# Declarations in the dialects

Member variables, validator variables and identifiers. C++ declares all of them in the header; the
other languages give validator variables and identifiers their values where the class is defined.
-/

namespace FormDesign

/-- The declaration of a member variable. -/
structure MemberDeclaration where
  varName : String
  /-- The class, spelled for the language. -/
  classToken : String
  byValue : Bool
  comment : String
  isPublic : Bool

/-- The initial value of a validator variable. -/
inductive InitialValue
  | bool (b : Bool)
  | number (text : String)
  | text (s : String)
  | absent
  deriving DecidableEq

/-- A variable that a validator ties to a control. -/
structure ValidatorVar where
  name : String
  /-- The type in C++. -/
  dataType : String
  init : InitialValue
  deriving DecidableEq

namespace Dialect

/-! ## Members -/

/-- The line that declares a member variable, if the language has one. -/
def memberDeclaration (d : Dialect) (m : MemberDeclaration) : Option String :=
  match d with
  | .cpp =>
    let pointer := if m.byValue then "" else "*"
    let remark := if m.comment = "" then "" else "  // " ++ m.comment
    some (m.classToken ++ pointer ++ " " ++ m.varName ++ ";" ++ remark)
  | .ruby => if m.isPublic then some ("attr_reader :" ++ m.varName) else none
  | .python | .perl => none

/-! ## Validator variables -/

/-- The literal that initializes a validator variable. -/
def initialLiteral (d : Dialect) : InitialValue → String
  | .bool b => d.boolLiteral b
  | .number text => text
  | .text s => d.textLiteral s
  | .absent => d.nullLiteral

/-- The line that declares a validator variable, if the language has one. An empty text is the
initial value anyway. -/
def validatorDeclaration (d : Dialect) (v : ValidatorVar) : Option String :=
  match d with
  | .cpp =>
    let declared := v.dataType ++ " " ++ v.name
    match v.init with
    | .absent | .text "" => some (declared ++ ";")
    | init => some (declared ++ " \x7b " ++ d.initialLiteral init ++ " \x7d;")
  | .python | .ruby | .perl => none

/-- The statement that initializes a validator variable, if it was not declared. -/
def validatorInit (d : Dialect) (v : ValidatorVar) : Option String :=
  match d with
  | .cpp => none
  | .python | .ruby | .perl =>
    some (d.memberRef v.name ++ " = " ++ d.initialLiteral v.init ++ d.statementEnd)

/-- The statement that ties a validator variable to its control, if the language has one. -/
def validatorBinding (d : Dialect) (control : Var) (v : ValidatorVar) : Option String :=
  match d with
  | .cpp => some (d.varRef control ++ "->SetValidator(wxGenericValidator(&" ++ v.name ++ "));")
  | .python | .ruby | .perl => none

/-! ## Identifiers -/

/-- The names with their positions and whether another one follows. -/
def listed (names : List String) : List (String × Nat × Bool) :=
  names.zipIdx.map fun (name, i) => (name, i, i + 1 < names.length)

/-- The lines that declare the identifiers of a form: the bare ones, and those with a value. -/
def idDeclarations (d : Dialect) (bare : List String) (valued : List (String × String)) :
    List String :=
  match d with
  | .cpp =>
    let entry := fun (name, i, more) =>
      "\t" ++ name ++ (if i = 0 then " = wxID_HIGHEST + 1" else "") ++ (if more then "," else "")
    let enumeration :=
      if bare = [] then [] else ["enum", "\x7b"] ++ (listed bare).map entry ++ ["\x7d;"]
    enumeration ++ valued.map fun (name, value) =>
      "static const int " ++ name ++ " = " ++ value ++ ";"
  | .python =>
    bare.map (· ++ " = wx.NewIdRef()") ++ valued.map fun (name, value) => name ++ " = " ++ value
  | .ruby =>
    (bare.zipIdx.map fun (name, i) => name ++ " = Wx::ID_HIGHEST + " ++ toString (i + 1))
      ++ valued.map fun (name, value) => name ++ " = " ++ value
  | .perl =>
    (bare.map fun name => "use constant " ++ name ++ " => Wx::NewId();")
      ++ valued.map fun (name, value) => "use constant " ++ name ++ " => " ++ value ++ ";"

end Dialect

end FormDesign
