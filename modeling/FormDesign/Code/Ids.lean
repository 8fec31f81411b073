import FormDesign.Code.Form
import FormDesign.Identifier

/-!
# Identifiers of a form

The identifiers that a form has to declare: the bare ones, which are numbered, and those that come
with a value. A later value for the same name counts.
-/

namespace FormDesign

structure IdTable where
  /-- Sorted, each once. -/
  bare : List String
  /-- Sorted by name, each name once. -/
  valued : List (String × String)
  deriving DecidableEq

namespace IdTable

def empty : IdTable := { bare := [], valued := [] }

/-- The table with one more identifier. Those of the stock are not declared. -/
def add (t : IdTable) (id : Identifier) : IdTable :=
  if id.isStock then t
  else
    match id with
    | .bare name => { t with bare := Sorted.insert name t.bare }
    | .constant name value => { t with valued := Sorted.put name value t.valued }

/-- The table of the identifiers that texts hold. -/
def ofTexts (texts : List String) : IdTable :=
  (texts.filterMap Identifier.parse?).foldl add empty

end IdTable

namespace Element

/-- The texts of the identifier properties. -/
def idTexts (e : Element) : List String :=
  (e.props.filter fun (p, _) => p.valueType == .identifier).map Prod.snd

end Element

/-- The identifiers that a form has to declare, its own included. -/
def Form.ids (f : Form) : IdTable :=
  .ofTexts (f.elements.flatMap Element.idTexts)

end FormDesign
