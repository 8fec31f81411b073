import FormDesign.Image.Description
import FormDesign.Kind
import FormDesign.Language

/-!
# Faults

The causes for which generation of a form stops, and their wording. Whatever can be recovered from
is a warning instead and never appears here.
-/

namespace FormDesign

inductive Fault
  /-- A text is no image description. -/
  | badDescription (text : String) (reason : DescriptionFault)
  /-- A position is outside the tree. -/
  | unknownNode (id : Nat)
  /-- Two files would share the name of a data array. -/
  | arrayNameConflict (first second arrayName : String)
  /-- The bytes of a file cannot be read. -/
  | unreadable (path reason : String)
  /-- The pass over the images of a form failed. -/
  | imagePass (cause : Fault)
  /-- A node that is no form was to be generated. -/
  | notAForm (kind : Kind)
  /-- No generator of source code exists for the language. -/
  | noGenerator (language : Language)

namespace Fault

/-- The text shown to the user. -/
def message : Fault → String
  | .badDescription text reason =>
    "Invalid image description '" ++ text ++ "': " ++ reason.message
  | .unknownNode id => "Node " ++ toString id ++ " is not part of this design tree"
  | .arrayNameConflict first second arrayName =>
    "Embedded image '" ++ second ++ "' conflicts with '" ++ first ++ "' (both map to '"
      ++ arrayName ++ "')"
  | .unreadable path reason => "Unable to read '" ++ path ++ "': " ++ reason
  | .imagePass cause => "The image header pass failed: " ++ cause.message
  | .notAForm kind => "'" ++ kind.name ++ "' is not a form"
  | .noGenerator language => "No " ++ language.name ++ " code generator is available"

end Fault

end FormDesign
