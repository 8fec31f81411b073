import FormDesign.Image.Description
import FormDesign.Kind

/-!
# Statements

What a generated constructor does, without the spelling of any language: objects are created, held
in variables, and given to method calls. Events are bound to handlers of the form.
-/

namespace FormDesign

/-- A variable that holds a created object. -/
structure Var where
  name : String
  /-- Whether it is a member of the class instead of a local variable. -/
  isMember : Bool
  /-- Whether it holds the object itself instead of a pointer to it. -/
  byValue : Bool
  deriving DecidableEq

namespace Var

def member (name : String) : Var :=
  { name, isMember := true, byValue := false }

def temporary (name : String) : Var :=
  { name, isMember := false, byValue := false }

end Var

mutual

/-- The object that a method is called on. -/
inductive Target where
  /-- The form itself. -/
  | form
  | var (v : Var)
  /-- The value of another expression. -/
  | result (e : Expr)

/-- An argument of a call. -/
inductive Expr where
  /-- The form itself. -/
  | self
  | var (v : Var)
  | text (s : String)
  | int (n : Int)
  | bool (b : Bool)
  /-- Constants of the toolkit, with bars between. -/
  | const (s : String)
  /-- An identifier, of the stock or declared by the form. -/
  | id (s : String)
  | size (width height : Int)
  | point (x y : Int)
  | bitmap (image : ImageDescription)
  | animation (image : ImageDescription)
  /-- Text that is copied as it is. -/
  | raw (s : String)
  | new (className : String) (library : Library) (args : List Expr)
  | call (target : Target) (method : String) (args : List Expr)
  | null

end

namespace Expr

/-- A size, or the constant for the default size when both sides are -1. -/
def sizeOf (width height : Int) : Expr :=
  if width = -1 ∧ height = -1 then .const "wxDefaultSize" else .size width height

end Expr

/-- A statement of the constructor. -/
inductive Stmt where
  /-- Creates an object of a class, spelled for the language, and keeps it in a variable. Where the
  variable holds the object itself, the method is called on it instead. -/
  | create (v : Var) (className : String) (args : List Expr) (initMethod : Option String)
  | call (target : Target) (method : String) (args : List Expr)
  | comment (text : String)

/-- Where a bound event comes from. -/
inductive BindSource where
  | form
  | window (v : Var)
  /-- A menu item or a tool, known by its identifier. -/
  | item (id : Expr)

/-- An event that is bound to a handler. -/
structure Binding where
  event : String
  handler : String
  /-- The class that the handler is a method of. -/
  className : String
  source : BindSource

end FormDesign
