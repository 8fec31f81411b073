import FormDesign.Text.Split

/-!
# Window identifiers

The text of an identifier property: a bare name, which goes into the enumeration of the form, or a
name and a literal with an equals sign between, which becomes a constant. Names of the toolkit's
own stock are never declared.
-/

namespace FormDesign

/-- What an identifier property says. -/
inductive Identifier
  | bare (name : String)
  | constant (name value : String)
  deriving DecidableEq

namespace Identifier

/-- How the stock identifiers of the toolkit begin. -/
def stockStart : String := "wxID_"

/-- Reads an identifier. A blank text holds none. -/
def parse? (text : String) : Option Identifier :=
  let value := Text.trim text
  if value = "" then none
  else
    match Text.cutAt? '=' value with
    | some (name, literal) => some (.constant (Text.trim name) (Text.trim literal))
    | none => some (.bare value)

/-- The name without any literal. -/
def name : Identifier → String
  | .bare name => name
  | .constant name _ => name

/-- Whether the name belongs to the toolkit's stock. -/
def isStock (id : Identifier) : Bool :=
  Text.startsWith id.name stockStart

/-- Whether a property text is an identifier that the form declares itself. -/
def isCustom (text : String) : Bool :=
  let value := Text.trim text
  value ≠ "" && !Text.startsWith value stockStart

end Identifier

end FormDesign
